import MaxApi.Responses.Gathering
import MaxApi.Responses.WellFormed
import Mathlib.Data.List.Nodup
import Mathlib.Data.List.Perm.Basic

/-! # Responses: the stream and the whole agree

However a chat completion is cut into chunks, the final response of the stream has the items, the
status and the usage that the conversion of the whole gives, up to the order of the items and the
ids of those that have none of their own (`stream_agrees_with_whole`). -/

namespace MaxApi.Responses

open Dto

/-! ### Runs -/

section runs

variable (codec : ArgumentsCodec) {names : List String} {reason : String} {s : StreamState}
  {ps : List Piece}

/-- Each piece may come after those before it. -/
def Feasible (reason : String) : List Piece → List Piece → Prop
  | _, [] => True
  | ps, q :: qs => Next reason ps q ∧ Feasible reason (ps ++ [q]) qs

theorem feasible_append {reason : String} :
    ∀ {qs rs ps : List Piece}, Feasible reason ps (qs ++ rs) →
      Feasible reason ps qs ∧ Feasible reason (ps ++ qs) rs
  | [], rs, ps, h => by
      rw [List.append_nil]
      exact ⟨trivial, h⟩
  | q :: qs, rs, ps, h => by
      obtain ⟨hq, hrest⟩ := feasible_append h.2
      rw [List.append_assoc] at hrest
      exact ⟨⟨h.1, hq⟩, hrest⟩

theorem convertPiece_usage (hs : Sound s) (hcreated : s.sentCreated = true) (p : Piece) :
    (convertPiece codec s p).state.usage = s.usage := by
  cases p with
  | part p delta =>
      unfold convertPiece convertPart Part.append Part.start
      dsimp only
      split_ifs
      · exact Part.set_usage _ _ p
      · exact (Part.set_usage _ _ p).trans (Part.set_usage _ _ p)
      · rfl
  | toolCall toolCall =>
      unfold convertPiece convertToolCall appendToolCallDelta
      dsimp only
      split_ifs
      · rfl
      · cases mergeToolCall s toolCall with
        | error e => rfl
        | ok tool =>
            dsimp only
            split_ifs <;> rfl
  | finish reason =>
      unfold convertPiece convertFinish
      cases reason with
      | none => rfl
      | some reason =>
          dsimp only
          split_ifs
          · rw [applyFinishReason_eq]
            generalize responsesStatusFromChatFinishReason reason = status
            have hstart := relabel_emission codec hs hcreated status.1 status.2
            exact (doneDeltaEvents_closing codec hstart.sound hstart.created).usage
          · rfl

theorem Gathered.piece (h : Gathered names reason s ps) (hcreated : s.sentCreated = true)
    {q : Piece} (hnext : Next reason ps q) :
    (convertPiece codec s q).error = none ∧
      Gathered names reason (convertPiece codec s q).state (ps ++ [q]) := by
  cases q with
  | part p delta => exact ⟨rfl, h.part codec hcreated hnext⟩
  | toolCall toolCall => exact h.toolCall codec hcreated hnext
  | finish finish => exact h.finish codec hcreated hnext

theorem Gathered.pieces :
    ∀ (qs : List Piece) {ps : List Piece} {s : StreamState}, Gathered names reason s ps →
      s.sentCreated = true → Feasible reason ps qs →
      Gathered names reason (convertPieces codec s qs).state (ps ++ qs) ∧
        (convertPieces codec s qs).state.usage = s.usage
  | [], ps, s, h, _, _ => by
      rw [List.append_nil]
      exact ⟨h, rfl⟩
  | q :: qs, ps, s, h, hcreated, hfeasible => by
      obtain ⟨herror, hpiece⟩ := h.piece codec hcreated hfeasible.1
      have husage := convertPiece_usage codec h.sound hcreated q
      have hclash : ¬Clash s q := by
        intro hclash
        obtain ⟨e, he⟩ := convertPiece_clash codec hclash
        rw [he] at herror
        cases herror
      obtain ⟨s₁, es, hconvert, hemission, -⟩ := convertPiece_emission codec h.sound hcreated hclash
      rw [convertPieces_cons, hconvert]
      rw [hconvert] at hpiece husage
      obtain ⟨hrest, hrestUsage⟩ := Gathered.pieces qs hpiece hemission.created hfeasible.2
      rw [List.append_assoc] at hrest
      exact ⟨hrest, hrestUsage.trans husage⟩

/-- The usage after a chunk. -/
def chunkUsage (usage : Usage) (chunk : ChatCompletionsStreamResponse) : Usage :=
  match chunk.usage with
  | none => usage
  | some usage => usageFromChatUsage usage

theorem item_chunkState (s : StreamState) (chunk : ChatCompletionsStreamResponse) (p : Part) :
    p.item (chunkState s chunk) = p.item s := by cases p <;> rfl

theorem Gathered.chunk (h : Gathered names reason s ps) (chunk : ChatCompletionsStreamResponse)
    (hfeasible : Feasible reason ps (chunkPieces chunk)) :
    Gathered names reason (chunkStep codec s chunk) (ps ++ chunkPieces chunk) ∧
      (chunkStep codec s chunk).usage = chunkUsage s.usage chunk := by
  have hstart : Gathered names reason (chunkState s chunk) ps :=
    { sound := chunkState_sound h.sound chunk
      text := fun p => by
        rw [item_chunkState]
        exact h.text p
      started := fun p => by
        rw [item_chunkState]
        exact h.started p
      tools := h.tools
      running := fun hopen => by
        obtain ⟨hdone, htools, hnames⟩ := h.running hopen
        refine ⟨fun p => ?_, htools, hnames⟩
        rw [item_chunkState]
        exact hdone p
      status := h.status }
  obtain ⟨hpieces, husage⟩ := Gathered.pieces codec (chunkPieces chunk) hstart rfl hfeasible
  unfold chunkStep
  rw [chunk_eq]
  exact ⟨hpieces, husage⟩

theorem Gathered.run :
    ∀ (chunks : List ChatCompletionsStreamResponse) {ps : List Piece} {s : StreamState},
      Gathered names reason s ps → Feasible reason ps (chunks.flatMap chunkPieces) →
      Gathered names reason (Transition.run (chunkStep codec) s chunks)
          (ps ++ chunks.flatMap chunkPieces) ∧
        (Transition.run (chunkStep codec) s chunks).usage = chunks.foldl chunkUsage s.usage
  | [], ps, s, h, _ => by
      rw [List.flatMap_nil, List.append_nil]
      exact ⟨h, rfl⟩
  | chunk :: chunks, ps, s, h, hfeasible => by
      rw [List.flatMap_cons] at hfeasible ⊢
      obtain ⟨hfirst, hrest⟩ := feasible_append hfeasible
      obtain ⟨hchunk, husage⟩ := h.chunk codec chunk hfirst
      obtain ⟨hrun, hrunUsage⟩ := Gathered.run chunks hchunk hrest
      rw [List.append_assoc] at hrun
      rw [husage] at hrunUsage
      exact ⟨hrun, hrunUsage⟩

end runs

/-! ### Cutting a completion into chunks -/

/-- A tool call of a completion: a function, which may stand for a custom tool, with an id and a
name that is trimmed. -/
structure Proper (tool : ToolCallRequest) : Prop where
  type : tool.type = "" ∨ tool.type = "function"
  id : Text.trimSpace tool.id ≠ ""
  name : tool.function.name ≠ ""
  trimmed : Text.trimSpace tool.function.name = tool.function.name

/-- The deltas of a tool call: the first one has the id and the name, which a later one may give
again, and their arguments make up those of the tool call. -/
def ToolCut (tool : ToolCallRequest) : List ToolCallResponse → Prop
  | [] => False
  | first :: rest =>
      Text.trimSpace first.id = Text.trimSpace tool.id ∧
        Text.trimSpace first.function.name = tool.function.name ∧
        (∀ delta ∈ rest,
          (Text.trimSpace delta.id = "" ∨ Text.trimSpace delta.id = Text.trimSpace tool.id) ∧
            (Text.trimSpace delta.function.name = "" ∨
              Text.trimSpace delta.function.name = tool.function.name)) ∧
        argumentsOf (first :: rest) = tool.function.arguments

/-- The chunks are a completion of one choice, cut in some way: the deltas of the text, of the
reasoning and of the tool calls are interleaved, the finish reason comes after them, and the last
usage is that of the completion. -/
structure Cut (choice : ChatChoice) (usage : Usage)
    (chunks : List ChatCompletionsStreamResponse) : Prop where
  text : partText .message (chunks.flatMap chunkPieces) = choice.message.content
  reasoning : partText .reasoning (chunks.flatMap chunkPieces) =
    choice.message.getReasoningContent
  tools : ∀ (i : ℕ) (tool : ToolCallRequest), choice.message.toolCalls[i]? = some tool →
    ToolCut tool (toolDeltas i (chunks.flatMap chunkPieces))
  noTools : ∀ k : ℤ, (∀ i < choice.message.toolCalls.length, (i : ℤ) ≠ k) →
    toolDeltas k (chunks.flatMap chunkPieces) = []
  last : ∃ deltas rest, chunks.flatMap chunkPieces = deltas ++ rest ∧ finishReasons deltas = [] ∧
    ∀ p ∈ rest, Bare p
  reasons : ∀ reason ∈ finishReasons (chunks.flatMap chunkPieces), reason = choice.finishReason
  finished : Text.trimSpace choice.finishReason ≠ "" →
    finishReasons (chunks.flatMap chunkPieces) ≠ []
  usage : (chunks.filterMap (·.usage)).getLast?.getD .empty = usage

theorem feasible_of_splits {reason : String} {all : List Piece}
    (h : ∀ ps q qs, all = ps ++ q :: qs → Next reason ps q) :
    ∀ {rest ps : List Piece}, all = ps ++ rest → Feasible reason ps rest
  | [], _, _ => trivial
  | q :: qs, ps, hsplit => by
      refine ⟨h ps q qs hsplit, feasible_of_splits h ?_⟩
      rw [List.append_assoc]
      exact hsplit

/-- The deltas of a tool call that has some belong to a tool call of the completion. -/
theorem Cut.tool {choice : ChatChoice} {usage : Usage}
    {chunks : List ChatCompletionsStreamResponse} (h : Cut choice usage chunks) {k : ℤ}
    (hdeltas : toolDeltas k (chunks.flatMap chunkPieces) ≠ []) :
    ∃ (i : ℕ) (tool : ToolCallRequest), (i : ℤ) = k ∧ choice.message.toolCalls[i]? = some tool := by
  by_contra hnone
  refine hdeltas (h.noTools k fun i hi hik => hnone ⟨i, choice.message.toolCalls[i], hik, ?_⟩)
  exact List.getElem?_eq_getElem hi

theorem Cut.feasible {choice : ChatChoice} {usage : Usage}
    {chunks : List ChatCompletionsStreamResponse} (h : Cut choice usage chunks)
    (hproper : ∀ tool ∈ choice.message.toolCalls, Proper tool) :
    Feasible choice.finishReason [] (chunks.flatMap chunkPieces) := by
  refine feasible_of_splits (fun ps q qs hsplit => ?_) (List.nil_append _).symm
  refine ⟨fun hreasons => ?_, fun text hq htext => ?_, fun toolCall hq => ?_⟩
  · obtain ⟨deltas, rest, hcut, hnone, hbare⟩ := h.last
    rw [hcut] at hsplit
    obtain ⟨as, rfl, hrest⟩ | ⟨as, hps, hrest⟩ := List.append_eq_append_iff.mp hsplit
    · refine hbare q ?_
      rw [hrest]
      exact List.mem_append_right as List.mem_cons_self
    · rw [hps, finishReasons_append] at hnone
      exact absurd (List.append_eq_nil_iff.mp hnone).1 hreasons
  · refine h.reasons text ?_
    rw [hsplit, hq]
    exact List.mem_filterMap.mpr
      ⟨.finish (some text), List.mem_append_right ps List.mem_cons_self, if_pos htext⟩
  · have hdeltas : toolDeltas (toolCall.index.getD 0) (chunks.flatMap chunkPieces) =
        toolDeltas (toolCall.index.getD 0) ps ++
          toolCall :: toolDeltas (toolCall.index.getD 0) qs := by
      rw [hsplit, toolDeltas_append, hq]
      unfold toolDeltas
      rw [List.filterMap_cons]
      dsimp only
      rw [if_pos rfl]
    have hne : toolDeltas (toolCall.index.getD 0) (chunks.flatMap chunkPieces) ≠ [] := by
      rw [hdeltas]
      exact List.append_ne_nil_of_right_ne_nil _ (List.cons_ne_nil _ _)
    obtain ⟨i, tool, hik, htool⟩ := h.tool hne
    have hcut := h.tools i tool htool
    have hp := hproper tool (List.mem_of_getElem? htool)
    rw [hik, hdeltas] at hcut
    cases hps : toolDeltas (toolCall.index.getD 0) ps with
    | nil =>
        rw [hps] at hcut
        obtain ⟨hid, hname, -⟩ := hcut
        dsimp only
        rw [hid, hname]
        exact ⟨hp.id, hp.name⟩
    | cons first more =>
        rw [hps] at hcut
        obtain ⟨hid, hname, hlater, -⟩ := hcut
        dsimp only
        rw [hid, hname]
        exact hlater toolCall (List.mem_append_right more List.mem_cons_self)

/-! ### The items of the final response -/

/-- The item without an id that the conversion has made up. -/
def stripID (item : ResponsesOutput) : ResponsesOutput :=
  match item.type with
  | .message | .reasoning => { item with id := "" }
  | _ => item

/-- The two responses have the same status and usage, and the same items up to their order and to
generated ids. -/
structure SameResponse (a b : OpenAIResponsesResponse) : Prop where
  status : a.status = b.status
  incompleteDetails : a.incompleteDetails = b.incompleteDetails
  usage : a.usage = b.usage
  output : (a.output.map stripID).Perm (b.output.map stripID)

/-- The items in the order of the whole. -/
def wholeOrder (message : ChatMessage) : List OutputRef :=
  (if message.content ≠ "" then [.message] else []) ++
    (if message.getReasoningContent ≠ "" then [.reasoning] else []) ++
    (List.range message.toolCalls.length).map fun i : ℕ => .tool i

theorem mem_wholeOrder (message : ChatMessage) (ref : OutputRef) :
    ref ∈ wholeOrder message ↔
      (ref = .message ∧ message.content ≠ "") ∨
        (ref = .reasoning ∧ message.getReasoningContent ≠ "") ∨
        ∃ i < message.toolCalls.length, ref = .tool (i : ℤ) := by
  unfold wholeOrder
  rw [List.mem_append, List.mem_append, or_assoc]
  refine or_congr ?_ (or_congr ?_ ?_)
  · split_ifs with h <;> simp [h]
  · split_ifs with h <;> simp [h]
  · simp [eq_comm]

theorem wholeOrder_nodup (message : ChatMessage) : (wholeOrder message).Nodup := by
  unfold wholeOrder
  refine List.nodup_append.mpr ⟨List.nodup_append.mpr ⟨?_, ?_, ?_⟩, ?_, ?_⟩
  · split_ifs <;> simp
  · split_ifs <;> simp
  · split_ifs <;> simp
  · refine List.Nodup.map (fun i j h => ?_) List.nodup_range
    exact Int.ofNat.inj (OutputRef.tool.inj h)
  · intro a ha b hb hab
    obtain ⟨i, -, rfl⟩ := List.mem_map.mp hb
    rw [hab] at ha
    split_ifs at ha <;> simp at ha

/-- A list of results, one for each index. -/
theorem filterMap_range {α β : Type} :
    ∀ {l : List α} {f : ℕ → Option β} {g : ℕ → α → β},
      (∀ i a, l[i]? = some a → f i = some (g i a)) →
      (List.range l.length).filterMap f = l.mapIdx g
  | [], _, _, _ => rfl
  | a :: l, f, g, h => by
      rw [List.length_cons, List.range_succ_eq_map, List.filterMap_cons, h 0 a rfl,
        List.mapIdx_cons, List.filterMap_map]
      dsimp only
      congr 1
      exact filterMap_range fun i b hb => h (i + 1) b (by rw [List.getElem?_cons_succ]; exact hb)

section final

variable (codec : ArgumentsCodec) {names : List String} {s : StreamState}
  {choice : ChatChoice} {usage : Usage} {chunks : List ChatCompletionsStreamResponse}

/-- The items that have been added are those of the whole. -/
theorem Gathered.order (h : Gathered names choice.finishReason s (chunks.flatMap chunkPieces))
    (hcut : Cut choice usage chunks) : s.outputOrder.Perm (wholeOrder choice.message) := by
  have hpart : ∀ p : Part, p.ref ∈ s.outputOrder ↔
      partText p (chunks.flatMap chunkPieces) ≠ "" := by
    intro p
    rw [← h.started p]
    constructor
    · intro hmem
      by_contra hstarted
      exact (h.sound.fresh p (Bool.not_eq_true _ ▸ hstarted)).1 hmem
    · exact fun hstarted => List.mem_of_getElem? (h.sound.started p hstarted)
  refine (List.perm_ext_iff_of_nodup h.sound.nodup (wholeOrder_nodup choice.message)).mpr
    fun ref => ?_
  rw [mem_wholeOrder]
  cases ref with
  | message =>
      have hmessage : OutputRef.message ∈ s.outputOrder ↔ _ := hpart .message
      rw [hcut.text] at hmessage
      simpa using hmessage
  | reasoning =>
      have hreasoning : OutputRef.reasoning ∈ s.outputOrder ↔ _ := hpart .reasoning
      rw [hcut.reasoning] at hreasoning
      simpa using hreasoning
  | tool k =>
      have htools := h.tools k
      constructor
      · intro hmem
        obtain ⟨tool, hfind, -⟩ := h.sound.listed k hmem
        have hne : toolDeltas k (chunks.flatMap chunkPieces) ≠ [] := by
          intro hnil
          rw [hnil, hfind] at htools
          cases htools
        obtain ⟨i, t, hik, hi⟩ := hcut.tool hne
        exact .inr (.inr ⟨i, (List.getElem?_eq_some_iff.mp hi).1, by rw [hik]⟩)
      · rintro (⟨href, -⟩ | ⟨href, -⟩ | ⟨i, hi, href⟩)
        · cases href
        · cases href
        · cases href
          have hdeltas := hcut.tools i _ (List.getElem?_eq_getElem hi)
          cases hlist : toolDeltas (i : ℤ) (chunks.flatMap chunkPieces) with
          | nil =>
              rw [hlist] at hdeltas
              exact hdeltas.elim
          | cons first rest =>
              rw [hlist] at htools
              obtain ⟨tool, hfind, -, -, -, hannounced, -⟩ := htools
              exact List.mem_of_getElem? (h.sound.announced _ tool hfind hannounced).1

/-- The item of a tool call that the stream has collected is that of the whole. -/
theorem toolOutput_whole {tool : StreamTool} {toolCall : ToolCallRequest}
    (hproper : Proper toolCall) (hid : tool.id = Text.trimSpace toolCall.id)
    (hname : tool.name = toolCall.function.name)
    (harguments : tool.arguments = toolCall.function.arguments)
    (hcustom : tool.custom = decide (tool.name ∈ names)) (id : String) (status : ResponseStatus)
    (i : ℕ) :
    toolOutput codec tool status = toolCallOutput codec names id status toolCall i := by
  have hitem : chatToolCallToResponsesOutput codec toolCall id i status =
      { ResponsesOutput.empty .functionCall (Text.trimSpace toolCall.id) status with
        callId := Text.trimSpace toolCall.id
        name := toolCall.function.name
        arguments := some (chatArgumentsRawMessage codec toolCall.function.arguments) } := by
    unfold chatToolCallToResponsesOutput
    dsimp only
    rw [if_neg hproper.id, if_pos hproper.type]
  unfold toolOutput toolCallOutput
  dsimp only
  rw [hitem, hproper.trimmed, hcustom, hname, hid, harguments]
  by_cases hmem : toolCall.function.name ∈ names
  · rw [if_pos (decide_eq_true hmem), if_pos ⟨hmem, rfl⟩]
    rfl
  · rw [if_neg fun h => hmem (of_decide_eq_true h), if_neg fun h => hmem h.1]

theorem Gathered.toolOutput
    (h : Gathered names choice.finishReason s (chunks.flatMap chunkPieces))
    (hcut : Cut choice usage chunks) (hproper : ∀ tool ∈ choice.message.toolCalls, Proper tool)
    (id : String) (status : ResponseStatus) (i : ℕ) (toolCall : ToolCallRequest)
    (hi : choice.message.toolCalls[i]? = some toolCall) :
    refOutput codec s status (.tool (i : ℤ)) =
      some (toolCallOutput codec names id status toolCall i) := by
  have hdeltas := hcut.tools i toolCall hi
  have htools := h.tools (i : ℤ)
  cases hlist : toolDeltas (i : ℤ) (chunks.flatMap chunkPieces) with
  | nil =>
      rw [hlist] at hdeltas
      exact hdeltas.elim
  | cons first rest =>
      rw [hlist] at hdeltas htools
      obtain ⟨tool, hfind, hid, hname, harguments, -, hcustom⟩ := htools
      obtain ⟨hfirstId, hfirstName, -, hall⟩ := hdeltas
      unfold refOutput
      dsimp only
      rw [hfind]
      refine congrArg some (toolOutput_whole codec (hproper toolCall (List.mem_of_getElem? hi))
        (hid.trans hfirstId) (hname.trans hfirstName) (harguments.trans hall) hcustom id status i)

/-- The items that the stream has gathered are those of the whole. -/
theorem Gathered.output
    (h : Gathered names choice.finishReason s (chunks.flatMap chunkPieces))
    (hcut : Cut choice usage chunks) (hproper : ∀ tool ∈ choice.message.toolCalls, Proper tool)
    (id : String) (status : ResponseStatus) :
    ((s.outputOrder.filterMap (refOutput codec s status)).map stripID).Perm
      (((if choice.message.content ≠ "" then [messageOutput id choice.message.content status]
          else []) ++
        (if choice.message.getReasoningContent ≠ "" then
          [reasoningOutput id choice.message.getReasoningContent status] else []) ++
        choice.message.toolCalls.mapIdx fun i toolCall =>
          toolCallOutput codec names id status toolCall i).map stripID) := by
  refine (((h.order hcut).filterMap (refOutput codec s status)).map stripID).trans ?_
  refine List.Perm.of_eq ?_
  have htext : s.message.text = choice.message.content := (h.text .message).trans hcut.text
  have hreasoning : s.reasoning.text = choice.message.getReasoningContent :=
    (h.text .reasoning).trans hcut.reasoning
  unfold wholeOrder
  rw [List.filterMap_append, List.filterMap_append, List.map_append, List.map_append,
    List.map_append, List.map_append, List.filterMap_map]
  congr 1
  · congr 1
    · split_ifs
      · rw [← htext]
        rfl
      · rfl
    · split_ifs
      · rw [← hreasoning]
        rfl
      · rfl
  · exact congrArg _ (filterMap_range fun i toolCall hi =>
      h.toolOutput codec hcut hproper id status i toolCall hi)

/-! ### The whole -/

theorem foldl_chunkUsage :
    ∀ (chunks : List ChatCompletionsStreamResponse) (usage : Usage),
      chunks.foldl chunkUsage usage =
        ((chunks.filterMap (·.usage)).getLast?.map usageFromChatUsage).getD usage
  | [], _ => rfl
  | chunk :: chunks, usage => by
      rw [List.foldl_cons, foldl_chunkUsage chunks, List.filterMap_cons]
      unfold chunkUsage
      cases chunk.usage with
      | none => rfl
      | some u =>
          dsimp only
          rw [List.getLast?_cons]
          cases (chunks.filterMap (·.usage)).getLast? <;> rfl

theorem usageFromChatUsage_empty : usageFromChatUsage .empty = .empty := by decide +kernel

theorem blank_status {reason : String} (h : Text.trimSpace reason = "") :
    responsesStatusFromChatFinishReason reason = (.completed, none) := by
  unfold responsesStatusFromChatFinishReason
  rw [h]
  rfl

/-- What the end of all items leaves of the state. -/
structure Ended (s s' : StreamState) : Prop where
  text : ∀ p : Part, (p.item s').text = (p.item s).text
  tools : ∀ k, findTool s'.tools k = (findTool s.tools k).map ended
  outputOrder : s'.outputOrder = s.outputOrder
  status : s'.status = (markNameless s).status
  incompleteDetails : s'.incompleteDetails = (markNameless s).incompleteDetails
  usage : s'.usage = s.usage

theorem run_ended (id model : String) (created : ℤ) (names : List String)
    (chunks : List ChatCompletionsStreamResponse) :
    Ended (Transition.run (chunkStep codec) (newStreamState id model created names) chunks)
      (doneDeltaEvents codec
        (Transition.run (chunkStep codec) (newStreamState id model created names) chunks)).1 := by
  cases chunks with
  | nil => exact ⟨fun p => by cases p <;> rfl, fun _ => rfl, rfl, rfl, rfl, rfl⟩
  | cons chunk chunks =>
      have hfirst := chunk_emission codec (Sound.newStreamState id model created names) chunk
      have hrun : Sound (Transition.run (chunkStep codec) (newStreamState id model created names)
          (chunk :: chunks)) ∧ (Transition.run (chunkStep codec)
            (newStreamState id model created names) (chunk :: chunks)).sentCreated = true :=
        Transition.run_invariant (chunkStep codec)
          (I := fun s => Sound s ∧ s.sentCreated = true)
          (fun s chunk h => ⟨(chunk_emission codec h.1 chunk).sound,
            (chunk_emission codec h.1 chunk).created⟩) chunks _ ⟨hfirst.sound, hfirst.created⟩
      have hclosing := doneDeltaEvents_closing codec hrun.1 hrun.2
      exact ⟨hclosing.text, hclosing.tools, hclosing.outputOrder, hclosing.status,
        hclosing.incompleteDetails, hclosing.usage⟩

/-- The end changes no item. -/
theorem Ended.output {s s' : StreamState} (h : Ended s s') (status : ResponseStatus) :
    (s'.outputOrder.filterMap (refOutput codec s' status)).map stripID =
      (s.outputOrder.filterMap (refOutput codec s status)).map stripID := by
  have href : ∀ ref : OutputRef, (refOutput codec s' status ref).map stripID =
      (refOutput codec s status ref).map stripID := by
    intro ref
    cases ref with
    | message =>
        have htext : s'.message.text = s.message.text := h.text .message
        unfold refOutput Part.output
        dsimp only
        rw [htext]
        rfl
    | reasoning =>
        have htext : s'.reasoning.text = s.reasoning.text := h.text .reasoning
        unfold refOutput Part.output
        dsimp only
        rw [htext]
        rfl
    | tool k =>
        unfold refOutput
        dsimp only
        rw [h.tools]
        cases findTool s.tools k <;> rfl
  rw [h.outputOrder, List.map_filterMap, List.map_filterMap]
  exact List.filterMap_congr fun ref _ => href ref

/-- **The stream and the whole agree.** -/
theorem stream_agrees_with_whole (resp : ChatResponse) (choice : ChatChoice) (id : String)
    (customToolNames : List String) (chunks : List ChatCompletionsStreamResponse)
    (streamID model : String) (created : ℤ) (hchoice : resp.choices = [choice])
    (hproper : ∀ tool ∈ choice.message.toolCalls, Proper tool)
    (hcut : Cut choice resp.usage chunks) :
    ∃ events response,
      (streamEvents codec (newStreamState streamID model created customToolNames) chunks =
          events ++ [.completed response] ∨
        streamEvents codec (newStreamState streamID model created customToolNames) chunks =
          events ++ [.incomplete response]) ∧
      SameResponse response
        (chatCompletionsResponseToResponsesResponse codec resp id customToolNames) := by
  have hnew := Gathered.newStreamState streamID model created customToolNames choice.finishReason
  obtain ⟨hgathered, husage⟩ := hnew.run codec chunks (hcut.feasible hproper)
  obtain ⟨events, hevents⟩ := streamEvents_terminal codec chunks hnew.sound
  have hended := run_ended codec streamID model created customToolNames chunks
  rw [List.nil_append] at hgathered
  generalize Transition.run (chunkStep codec)
    (Responses.newStreamState streamID model created customToolNames) chunks = s at *
  generalize (doneDeltaEvents codec s).1 = s' at *
  have hmark := markNameless_of_named hgathered.named
  have hstatus : (s'.status, s'.incompleteDetails) =
      responsesStatusFromChatFinishReason choice.finishReason := by
    rw [hended.status, hended.incompleteDetails, hmark, hgathered.status]
    split_ifs with hnone
    · by_cases hblank : Text.trimSpace choice.finishReason = ""
      · exact (blank_status hblank).symm
      · exact absurd hnone (hcut.finished hblank)
    · rfl
  refine ⟨events, finalResponse codec { s' with finalized := true }, ?_, ?_⟩
  · unfold terminalEvent at hevents
    split_ifs at hevents
    · exact .inr hevents
    · exact .inl hevents
  · unfold chatCompletionsResponseToResponsesResponse
    rw [hchoice]
    dsimp only
    rw [← hstatus]
    refine ⟨rfl, rfl, ?_, ?_⟩
    · show some s'.usage = some (usageFromChatUsage resp.usage)
      rw [hended.usage, husage, foldl_chunkUsage, ← hcut.usage]
      cases (chunks.filterMap (·.usage)).getLast? with
      | none => exact congrArg some usageFromChatUsage_empty.symm
      | some usage => rfl
    · have houtput := hgathered.output codec hcut hproper id (outputStatus s'.status)
      rw [← hended.output codec (outputStatus s'.status)] at houtput
      exact houtput

end final

/-! ### A completion in six chunks -/

def weatherTool : ToolCallRequest :=
  ⟨"call-1", "function", ⟨"weather", "\x7b\"city\":\"Rome\"\x7d"⟩, none⟩

/-- The call of a custom tool. -/
def shellTool : ToolCallRequest :=
  ⟨"call-2", "function", ⟨"shell", "\x7b\"input\":\"ls -l\"\x7d"⟩, none⟩

def weatherChoice : ChatChoice :=
  ⟨⟨"Hello", some "Look it up.", none, [weatherTool, shellTool]⟩, "tool_calls"⟩

def weatherUsage : Usage :=
  { Usage.empty with promptTokens := 20, completionTokens := 9, totalTokens := 29 }

def deltaChunk (delta : ChatCompletionsStreamResponseChoiceDelta) (finishReason : Option String) :
    ChatCompletionsStreamResponse :=
  ⟨"chatcmpl-1", "gpt", [⟨delta, finishReason⟩], none⟩

def weatherDeltas : List ToolCallResponse :=
  [⟨some 0, "call-1", ⟨"weather", "\x7b\"ci"⟩⟩, ⟨some 0, "", ⟨"", "ty\":\"Rome\"\x7d"⟩⟩]

def shellDeltas : List ToolCallResponse :=
  [⟨some 1, "call-2", ⟨"shell", "\x7b\"input\":"⟩⟩, ⟨some 1, "", ⟨"", "\"ls -l\"\x7d"⟩⟩]

def weatherChunks : List ChatCompletionsStreamResponse :=
  [deltaChunk ⟨none, some "Look ", none, "assistant", []⟩ none,
    deltaChunk ⟨some "Hel", some "it up.", none, "", weatherDeltas.take 1⟩ none,
    deltaChunk ⟨some "lo", none, none, "", shellDeltas.take 1 ++ weatherDeltas.drop 1⟩ none,
    deltaChunk ⟨none, none, none, "", shellDeltas.drop 1⟩ none,
    deltaChunk .empty (some "tool_calls"),
    ⟨"chatcmpl-1", "gpt", [], some weatherUsage⟩]

theorem weather_toolCut : ToolCut weatherTool weatherDeltas := by
  refine ⟨by decide +kernel, by decide +kernel, fun delta hdelta => ?_, by decide +kernel⟩
  rw [List.mem_singleton.mp hdelta]
  exact ⟨.inl (by decide +kernel), .inl (by decide +kernel)⟩

theorem shell_toolCut : ToolCut shellTool shellDeltas := by
  refine ⟨by decide +kernel, by decide +kernel, fun delta hdelta => ?_, by decide +kernel⟩
  rw [List.mem_singleton.mp hdelta]
  exact ⟨.inl (by decide +kernel), .inl (by decide +kernel)⟩

theorem weather_cut : Cut weatherChoice weatherUsage weatherChunks where
  text := by decide +kernel
  reasoning := by decide +kernel
  tools := fun i tool h => by
    cases i with
    | zero =>
        obtain rfl := Option.some.inj h
        have hdeltas : toolDeltas (0 : ℕ) (weatherChunks.flatMap chunkPieces) = weatherDeltas := by
          decide +kernel
        rw [hdeltas]
        exact weather_toolCut
    | succ i =>
        cases i with
        | zero =>
            obtain rfl := Option.some.inj h
            have hdeltas : toolDeltas (1 : ℕ) (weatherChunks.flatMap chunkPieces) =
                shellDeltas := by
              decide +kernel
            rw [hdeltas]
            exact shell_toolCut
        | succ i => cases h
  noTools := fun k hk => by
    have h0 : (0 : ℤ) ≠ k := hk 0 (by decide)
    have h1 : (1 : ℤ) ≠ k := hk 1 (by decide)
    show List.filterMap _ (weatherChunks.flatMap chunkPieces) = []
    simp [weatherChunks, weatherDeltas, shellDeltas, deltaChunk, chunkPieces, choicePieces,
      ChatCompletionsStreamResponseChoiceDelta.empty, h0, h1]
  last := ⟨(weatherChunks.take 4).flatMap chunkPieces, (weatherChunks.drop 4).flatMap chunkPieces,
    by decide +kernel, by decide +kernel, fun p hp => by
      have hpieces : (weatherChunks.drop 4).flatMap chunkPieces =
          [.part .reasoning "", .part .message "", .finish (some "tool_calls")] := by
        decide +kernel
      rw [hpieces] at hp
      rcases List.mem_cons.mp hp with rfl | hp
      · exact rfl
      rcases List.mem_cons.mp hp with rfl | hp
      · exact rfl
      · rw [List.mem_singleton.mp hp]
        exact trivial⟩
  reasons := by decide +kernel
  finished := fun _ => by decide +kernel
  usage := rfl

/-- Text, reasoning, a function and a custom tool. -/
theorem weather_agrees :
    ∃ events response,
      (streamEvents plainCodec (newStreamState "resp-1" "gpt" 0 ["shell"]) weatherChunks =
          events ++ [.completed response] ∨
        streamEvents plainCodec (newStreamState "resp-1" "gpt" 0 ["shell"]) weatherChunks =
          events ++ [.incomplete response]) ∧
      SameResponse response (chatCompletionsResponseToResponsesResponse plainCodec
        ⟨"gpt", 0, [weatherChoice], weatherUsage⟩ "resp-1" ["shell"]) :=
  stream_agrees_with_whole plainCodec ⟨"gpt", 0, [weatherChoice], weatherUsage⟩ weatherChoice
    "resp-1" ["shell"] weatherChunks "resp-1" "gpt" 0 rfl
    (fun tool htool => by
      rcases List.mem_cons.mp htool with rfl | htool
      · exact ⟨.inr rfl, by decide +kernel, by decide +kernel, by decide +kernel⟩
      · rw [List.mem_singleton.mp htool]
        exact ⟨.inr rfl, by decide +kernel, by decide +kernel, by decide +kernel⟩)
    weather_cut

end MaxApi.Responses
