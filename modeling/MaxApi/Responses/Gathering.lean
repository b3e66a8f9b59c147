import MaxApi.Responses.MissingName

/-! # Responses: what a stream has gathered

The state after some pieces, in terms of the pieces: the text of a part is the concatenation of its
deltas, a tool call has the id and the name of its first delta and the concatenation of the
arguments, and the status is that of the finish reason. -/

namespace MaxApi.Responses

open Dto

/-! ### What pieces say -/

/-- The text that a piece adds to a part. -/
def pieceText (p : Part) : Piece → String
  | .part q delta => if q = p then delta else ""
  | _ => ""

def partText (p : Part) : List Piece → String
  | [] => ""
  | piece :: ps => pieceText p piece ++ partText p ps

/-- The deltas of the tool call with an index. -/
def toolDeltas (k : ℤ) (ps : List Piece) : List ToolCallResponse :=
  ps.filterMap fun
    | .toolCall toolCall => if toolCall.index.getD 0 = k then some toolCall else none
    | _ => none

def argumentsOf : List ToolCallResponse → String
  | [] => ""
  | delta :: deltas => delta.function.arguments ++ argumentsOf deltas

/-- The finish reasons. -/
def finishReasons (ps : List Piece) : List String :=
  ps.filterMap fun
    | .finish (some reason) => if Text.trimSpace reason ≠ "" then some reason else none
    | _ => none

theorem partText_concat (p : Part) (piece : Piece) :
    ∀ ps : List Piece, partText p (ps ++ [piece]) = partText p ps ++ pieceText p piece
  | [] => by
      show pieceText p piece ++ "" = "" ++ pieceText p piece
      rw [String.append_empty, String.empty_append]
  | q :: ps => by
      show pieceText p q ++ partText p (ps ++ [piece]) = pieceText p q ++ partText p ps ++ _
      rw [partText_concat p piece ps, String.append_assoc]

theorem argumentsOf_concat (delta : ToolCallResponse) :
    ∀ deltas : List ToolCallResponse,
      argumentsOf (deltas ++ [delta]) = argumentsOf deltas ++ delta.function.arguments
  | [] => by
      show delta.function.arguments ++ "" = "" ++ delta.function.arguments
      rw [String.append_empty, String.empty_append]
  | d :: deltas => by
      show d.function.arguments ++ argumentsOf (deltas ++ [delta]) =
        d.function.arguments ++ argumentsOf deltas ++ _
      rw [argumentsOf_concat delta deltas, String.append_assoc]

theorem toolDeltas_append (k : ℤ) (ps qs : List Piece) :
    toolDeltas k (ps ++ qs) = toolDeltas k ps ++ toolDeltas k qs := List.filterMap_append

theorem finishReasons_append (ps qs : List Piece) :
    finishReasons (ps ++ qs) = finishReasons ps ++ finishReasons qs := List.filterMap_append

/-- The piece adds nothing to any item. -/
def Bare : Piece → Prop
  | .part _ delta => delta = ""
  | .toolCall _ => False
  | .finish _ => True

/-! ### The state -/

/-- The tool call of some deltas. -/
def Collected (names : List String) (found : Option StreamTool) :
    List ToolCallResponse → Prop
  | [] => found = none
  | first :: rest => ∃ tool, found = some tool ∧ tool.id = Text.trimSpace first.id ∧
      tool.name = Text.trimSpace first.function.name ∧
      tool.arguments = argumentsOf (first :: rest) ∧ tool.announced = true ∧
      tool.custom = decide (tool.name ∈ names)

/-- What the state has gathered from pieces. -/
structure Gathered (names : List String) (reason : String) (s : StreamState) (ps : List Piece) :
    Prop where
  sound : Sound s
  text : ∀ p : Part, (p.item s).text = partText p ps
  started : ∀ p : Part, (p.item s).started = true ↔ partText p ps ≠ ""
  tools : ∀ k, Collected names (findTool s.tools k) (toolDeltas k ps)
  running : finishReasons ps = [] → (∀ p : Part, (p.item s).done = false) ∧
    (∀ k tool, findTool s.tools k = some tool → tool.done = false) ∧ s.customToolNames = names
  status : (s.status, s.incompleteDetails) =
    if finishReasons ps = [] then (.completed, none)
    else responsesStatusFromChatFinishReason reason

/-- The piece may come after the pieces `ps`: nothing is added after a finish reason, there is one
finish reason, and the first delta of a tool call has its id and its name. -/
structure Next (reason : String) (ps : List Piece) (piece : Piece) : Prop where
  bare : finishReasons ps ≠ [] → Bare piece
  reason : ∀ text, piece = .finish (some text) → Text.trimSpace text ≠ "" → text = reason
  named : ∀ toolCall, piece = .toolCall toolCall →
    match toolDeltas (toolCall.index.getD 0) ps with
    | [] => Text.trimSpace toolCall.id ≠ "" ∧ Text.trimSpace toolCall.function.name ≠ ""
    | first :: _ =>
        (Text.trimSpace toolCall.id = "" ∨ Text.trimSpace toolCall.id = Text.trimSpace first.id) ∧
          (Text.trimSpace toolCall.function.name = "" ∨
            Text.trimSpace toolCall.function.name = Text.trimSpace first.function.name)

theorem Gathered.newStreamState (id model : String) (created : ℤ) (names : List String)
    (reason : String) : Gathered names reason (newStreamState id model created names) [] where
  sound := Sound.newStreamState id model created names
  text := fun p => by cases p <;> rfl
  started := fun p => by
    refine ⟨fun h => ?_, fun h => absurd rfl h⟩
    cases p <;> cases h
  tools := fun _ => rfl
  running := fun _ => ⟨fun p => by cases p <;> rfl, nofun, rfl⟩
  status := rfl

/-! ### A delta of a text -/

theorem start_frame (s : StreamState) (p : Part) :
    (∀ q : Part, q ≠ p → q.item (p.start s).1 = q.item s) ∧
      (p.item (p.start s).1).text = (p.item s).text ∧
      (p.start s).1.tools = s.tools ∧ (p.start s).1.customToolNames = s.customToolNames := by
  unfold Part.start
  split_ifs
  · exact ⟨fun _ _ => rfl, rfl, rfl, rfl⟩
  · refine ⟨fun q hq => ?_, ?_, Part.set_tools _ _ p, Part.set_customToolNames _ _ p⟩
    · exact (Part.item_set_of_ne _ _ p hq).trans (Part.item_takeIndex s q p.ref)
    · dsimp only
      rw [Part.item_set]

theorem append_item (s : StreamState) (p : Part) (delta : String) (q : Part) :
    (q ≠ p → q.item (p.append s delta).1 = q.item s) ∧
      (q = p → (q.item (p.append s delta).1).text = (q.item s).text ++ delta ∧
        (q.item (p.append s delta).1).started = true ∧
        (q.item (p.append s delta).1).done = (q.item s).done) := by
  obtain ⟨hothers, htext, -, -⟩ := start_frame s p
  obtain ⟨hstarted, hdone⟩ := start_item s p
  unfold Part.append
  dsimp only
  constructor
  · intro hq
    rw [Part.item_set_of_ne _ _ p hq, hothers q hq]
  · intro hq
    rw [hq, Part.item_set, htext]
    exact ⟨rfl, hstarted, hdone⟩

theorem append_frame (s : StreamState) (p : Part) (delta : String) :
    (p.append s delta).1.tools = s.tools ∧
      (p.append s delta).1.customToolNames = s.customToolNames := by
  obtain ⟨-, -, htools, hnames⟩ := start_frame s p
  unfold Part.append
  dsimp only
  exact ⟨(Part.set_tools _ _ p).trans htools, (Part.set_customToolNames _ _ p).trans hnames⟩

theorem append_ne_empty {a b : String} (h : b ≠ "") : a ++ b ≠ "" := by
  intro heq
  have hlength := congrArg String.length heq
  rw [String.length_append] at hlength
  have hpos := string_length_pos h
  change _ = 0 at hlength
  omega

section step

variable {names : List String} {reason : String} {s : StreamState} {ps : List Piece}

/-- A piece that is neither a tool call nor a finish reason leaves these alone. -/
theorem toolDeltas_part (k : ℤ) (p : Part) (delta : String) :
    toolDeltas k (ps ++ [.part p delta]) = toolDeltas k ps := by
  rw [toolDeltas_append]
  exact List.append_nil _

theorem finishReasons_part (p : Part) (delta : String) :
    finishReasons (ps ++ [.part p delta]) = finishReasons ps := by
  rw [finishReasons_append]
  exact List.append_nil _

theorem Gathered.part (codec : ArgumentsCodec) (h : Gathered names reason s ps)
    (hcreated : s.sentCreated = true) {p : Part}
    {delta : String} (hnext : Next reason ps (.part p delta)) :
    Gathered names reason (convertPart p delta s).state (ps ++ [.part p delta]) := by
  unfold convertPart
  by_cases hdelta : delta = ""
  · rw [if_neg fun hne => hne hdelta]
    have htext : ∀ q : Part, partText q (ps ++ [.part p delta]) = partText q ps := by
      intro q
      rw [partText_concat, hdelta]
      unfold pieceText
      dsimp only
      rw [ite_self, String.append_empty]
    refine ⟨h.sound, fun q => ?_, fun q => ?_, fun k => ?_, fun hopen => ?_, ?_⟩
    · rw [htext]
      exact h.text q
    · rw [htext]
      exact h.started q
    · rw [toolDeltas_part]
      exact h.tools k
    · rw [finishReasons_part] at hopen
      exact h.running hopen
    · rw [finishReasons_part]
      exact h.status
  · rw [if_pos hdelta]
    change Gathered names reason (p.append s delta).1 _
    have hopen : finishReasons ps = [] := by
      by_contra hne
      exact hdelta (hnext.bare hne)
    obtain ⟨hdone, htools, hnames⟩ := h.running hopen
    have hkeeps := append_keeps s p delta
    obtain ⟨hframeTools, hframeNames⟩ := append_frame s p delta
    refine ⟨(append_emission codec h.sound hcreated p hdelta).sound, fun q => ?_, fun q => ?_,
      fun k => ?_, fun _ => ⟨fun q => ?_, ?_, hframeNames.trans hnames⟩, ?_⟩
    · rw [partText_concat]
      unfold pieceText
      dsimp only
      by_cases hq : q = p
      · rw [if_pos hq.symm, ((append_item s p delta q).2 hq).1, h.text]
      · rw [if_neg fun hpq => hq hpq.symm, (append_item s p delta q).1 hq, h.text,
          String.append_empty]
    · rw [partText_concat]
      unfold pieceText
      dsimp only
      by_cases hq : q = p
      · rw [if_pos hq.symm]
        exact ⟨fun _ => append_ne_empty hdelta, fun _ => ((append_item s p delta q).2 hq).2.1⟩
      · rw [if_neg fun hpq => hq hpq.symm, (append_item s p delta q).1 hq, String.append_empty]
        exact h.started q
    · rw [toolDeltas_part]
      exact hframeTools ▸ h.tools k
    · by_cases hq : q = p
      · exact ((append_item s p delta q).2 hq).2.2.trans (hdone q)
      · rw [(append_item s p delta q).1 hq]
        exact hdone q
    · exact hframeTools ▸ htools
    · rw [finishReasons_part, if_pos hopen]
      have hstatus := h.status
      rw [if_pos hopen] at hstatus
      rw [← hstatus]
      exact Prod.ext hkeeps.status hkeeps.incompleteDetails

/-! ### A delta of a tool call -/

theorem toolDeltas_toolCall (k : ℤ) (toolCall : ToolCallResponse) :
    toolDeltas k (ps ++ [.toolCall toolCall]) =
      toolDeltas k ps ++ if toolCall.index.getD 0 = k then [toolCall] else [] := by
  rw [toolDeltas_append]
  unfold toolDeltas
  rw [List.filterMap_cons, List.filterMap_nil]
  dsimp only
  by_cases hk : toolCall.index.getD 0 = k
  · rw [if_pos hk, if_pos hk]
  · rw [if_neg hk, if_neg hk]

/-- The tool call as it is stored: with a name, it is announced. -/
def storedTool (s : StreamState) (tool : StreamTool) : StreamTool :=
  if tool.announced = false ∧ tool.name ≠ "" then
    { tool with
      announced := true
      custom := decide (tool.name ∈ s.customToolNames)
      outputIndex := s.nextOutputIndex }
  else tool

theorem storeTool_tools (codec : ArgumentsCodec) (s : StreamState) (tool : StreamTool)
    (delta : String) (k : ℤ) :
    findTool (storeTool codec s tool delta).1.tools k =
      if tool.chatIndex = k then some (storedTool s tool) else findTool s.tools k := by
  unfold storeTool storedTool
  by_cases h : tool.announced = false ∧ tool.name ≠ ""
  · rw [if_pos h, if_pos h]
    exact findTool_setTool _ k s.tools
  · rw [if_neg h, if_neg h]
    exact findTool_setTool tool k s.tools

theorem storedTool_done (s : StreamState) (tool : StreamTool) :
    (storedTool s tool).done = tool.done := by
  unfold storedTool
  split_ifs <;> rfl

theorem storeTool_frame (codec : ArgumentsCodec) (s : StreamState) (tool : StreamTool)
    (delta : String) :
    (∀ p : Part, p.item (storeTool codec s tool delta).1 = p.item s) ∧
      (storeTool codec s tool delta).1.customToolNames = s.customToolNames := by
  unfold storeTool
  split_ifs
  · exact ⟨fun p => by cases p <;> rfl, rfl⟩
  · exact ⟨fun p => by cases p <;> rfl, rfl⟩

theorem extended_fields (tool : StreamTool) (toolCall : ToolCallResponse) :
    (extended tool toolCall).id =
        (if Text.trimSpace toolCall.id ≠ "" then Text.trimSpace toolCall.id else tool.id) ∧
      (extended tool toolCall).name =
        if Text.trimSpace toolCall.function.name ≠ "" then Text.trimSpace toolCall.function.name
        else tool.name := by
  unfold extended renamed
  constructor <;> dsimp only

/-- The first delta of a tool call. -/
theorem collected_first (hnames : s.customToolNames = names) {toolCall : ToolCallResponse}
    (hfind : findTool s.tools (toolCall.index.getD 0) = none)
    (hid : Text.trimSpace toolCall.id ≠ "") (hname : Text.trimSpace toolCall.function.name ≠ "") :
    Collected names (some (storedTool s (newTool s toolCall))) [toolCall] := by
  unfold newTool
  have hold : (oldTool s toolCall).announced = false ∧ (oldTool s toolCall).arguments = "" := by
    unfold oldTool
    rw [hfind]
    exact ⟨rfl, rfl⟩
  generalize oldTool s toolCall = old at hold ⊢
  have hcontinues := extended_continues old toolCall
  obtain ⟨hnewId, hnewName⟩ := extended_fields old toolCall
  rw [if_pos hid] at hnewId
  rw [if_pos hname] at hnewName
  generalize extended old toolCall = new at hcontinues hnewId hnewName ⊢
  unfold storedTool
  rw [if_pos ⟨hcontinues.announced.trans hold.1, by rw [hnewName]; exact hname⟩]
  refine ⟨_, rfl, hnewId, hnewName, ?_, rfl, ?_⟩
  · show new.arguments = toolCall.function.arguments ++ ""
    rw [hcontinues.arguments, hold.2, String.append_empty, String.empty_append]
  · rw [hnames]

/-- A further delta of a tool call. -/
theorem collected_next {toolCall first : ToolCallResponse} {rest : List ToolCallResponse}
    (hcollected : Collected names (findTool s.tools (toolCall.index.getD 0)) (first :: rest))
    (hid : Text.trimSpace toolCall.id = "" ∨
      Text.trimSpace toolCall.id = Text.trimSpace first.id)
    (hname : Text.trimSpace toolCall.function.name = "" ∨
      Text.trimSpace toolCall.function.name = Text.trimSpace first.function.name) :
    Collected names (some (storedTool s (newTool s toolCall))) (first :: rest ++ [toolCall]) ∧
      ¬Renames (oldTool s toolCall) toolCall := by
  obtain ⟨tool, hfind, htoolId, htoolName, harguments, hannounced, hcustom⟩ := hcollected
  unfold newTool
  rw [oldTool_found hfind]
  have hcontinues := extended_continues tool toolCall
  obtain ⟨hnewId, hnewName⟩ := extended_fields tool toolCall
  have hsameId : (extended tool toolCall).id = Text.trimSpace first.id := by
    rw [hnewId]
    split_ifs with hempty
    · exact hid.resolve_left hempty
    · exact htoolId
  have hsameName : (extended tool toolCall).name = Text.trimSpace first.function.name := by
    rw [hnewName]
    split_ifs with hempty
    · exact hname.resolve_left hempty
    · exact htoolName
  constructor
  · generalize extended tool toolCall = new at hcontinues hsameId hsameName ⊢
    unfold storedTool
    have htrue := hcontinues.announced.trans hannounced
    rw [if_neg fun hc => Bool.false_ne_true (hc.1.symm.trans htrue)]
    refine ⟨new, rfl, hsameId, hsameName, ?_, htrue, ?_⟩
    · show new.arguments = argumentsOf (first :: rest ++ [toolCall])
      rw [argumentsOf_concat, hcontinues.arguments, harguments]
    · rw [hcontinues.custom, hcustom, hsameName, htoolName]
  · rintro (⟨hne, hdiffer⟩ | ⟨hne, hdiffer⟩)
    · exact hdiffer (htoolId.trans (hid.resolve_left hne).symm)
    · exact hdiffer (htoolName.trans (hname.resolve_left hne).symm)

theorem Gathered.toolCall (codec : ArgumentsCodec) (h : Gathered names reason s ps)
    (hcreated : s.sentCreated = true) {toolCall : ToolCallResponse}
    (hnext : Next reason ps (.toolCall toolCall)) :
    (convertToolCall codec s toolCall).error = none ∧
      Gathered names reason (convertToolCall codec s toolCall).state
        (ps ++ [.toolCall toolCall]) := by
  have hopen : finishReasons ps = [] := by
    by_contra hne
    exact hnext.bare hne
  obtain ⟨hdone, htools, hnames⟩ := h.running hopen
  have hcollected := h.tools (toolCall.index.getD 0)
  have hnamed := hnext.named toolCall rfl
  have hstored : Collected names (some (storedTool s (newTool s toolCall)))
      (toolDeltas (toolCall.index.getD 0) ps ++ [toolCall]) ∧
        ¬((oldTool s toolCall).announced = true ∧ Renames (oldTool s toolCall) toolCall) := by
    cases hdeltas : toolDeltas (toolCall.index.getD 0) ps with
    | nil =>
        rw [hdeltas] at hcollected hnamed
        refine ⟨collected_first hnames hcollected hnamed.1 hnamed.2, fun hc => ?_⟩
        have hfind := oldTool_announced hc.1
        rw [show findTool s.tools (toolCall.index.getD 0) = none from hcollected] at hfind
        cases hfind
    | cons first rest =>
        rw [hdeltas] at hcollected hnamed
        have hnextTool := collected_next hcollected hnamed.1 hnamed.2
        exact ⟨hnextTool.1, fun hc => hnextTool.2 hc.2⟩
  obtain ⟨hstored, hmerge⟩ := hstored
  have hnotDone : ¬(findTool s.tools (toolCall.index.getD 0)).any (·.done) = true := by
    intro hany
    cases hfind : findTool s.tools (toolCall.index.getD 0) with
    | none =>
        rw [hfind] at hany
        cases hany
    | some tool =>
        rw [hfind] at hany
        exact Bool.false_ne_true ((htools _ tool hfind).symm.trans hany)
  have hclash : ¬Clash s (.toolCall toolCall) := by
    rintro ⟨tool, hfind, -, hannounced, hrenames⟩
    rw [← oldTool_found hfind] at hannounced hrenames
    exact hmerge ⟨hannounced, hrenames⟩
  obtain ⟨s', events, happend, hemission, -⟩ :=
    appendToolCallDelta_emission codec h.sound hcreated hclash
  have hkeeps := appendToolCallDelta_keeps codec happend
  have hok := appendToolCallDelta_ok codec hnotDone hmerge
  have hs' : s' = (storeTool codec s (newTool s toolCall) toolCall.function.arguments).1 := by
    rw [hok] at happend
    rw [Except.ok.inj happend]
  have hfind := storeTool_tools codec s (newTool s toolCall) toolCall.function.arguments
  obtain ⟨hparts, hframeNames⟩ :=
    storeTool_frame codec s (newTool s toolCall) toolCall.function.arguments
  have hkey : (newTool s toolCall).chatIndex = toolCall.index.getD 0 :=
    (extended_continues (oldTool s toolCall) toolCall).chatIndex.trans
      (oldTool_chatIndex s toolCall)
  rw [← hs', hkey] at hfind
  rw [← hs'] at hparts hframeNames
  unfold convertToolCall
  rw [happend]
  refine ⟨rfl, ?_⟩
  change Gathered names reason s' _
  have htext : ∀ q : Part, partText q (ps ++ [.toolCall toolCall]) = partText q ps := by
    intro q
    rw [partText_concat]
    exact String.append_empty
  have hreasons : finishReasons (ps ++ [.toolCall toolCall]) = finishReasons ps := by
    rw [finishReasons_append]
    exact List.append_nil _
  refine ⟨hemission.sound, fun q => ?_, fun q => ?_, fun k => ?_,
    fun _ => ⟨fun q => ?_, fun k tool htool => ?_, hframeNames.trans hnames⟩, ?_⟩
  · rw [hparts, htext]
    exact h.text q
  · rw [hparts, htext]
    exact h.started q
  · rw [hfind, toolDeltas_toolCall]
    by_cases hk : toolCall.index.getD 0 = k
    · rw [if_pos hk, if_pos hk, ← hk]
      exact hstored
    · rw [if_neg hk, if_neg hk, List.append_nil]
      exact h.tools k
  · rw [hparts]
    exact hdone q
  · rw [hfind] at htool
    by_cases hk : toolCall.index.getD 0 = k
    · rw [if_pos hk, Option.some_inj] at htool
      rw [← htool, storedTool_done]
      exact (extended_continues _ toolCall).done.trans (oldTool_done hnotDone)
    · rw [if_neg hk] at htool
      exact htools k tool htool
  · rw [hreasons, hkeeps.status, hkeeps.incompleteDetails]
    exact h.status

/-! ### A finish reason -/

theorem finishReasons_finish (text : String) (h : Text.trimSpace text ≠ "") :
    finishReasons (ps ++ [.finish (some text)]) = finishReasons ps ++ [text] := by
  rw [finishReasons_append]
  unfold finishReasons
  rw [List.filterMap_cons, List.filterMap_nil]
  dsimp only
  rw [if_pos h]

theorem finishReasons_blank {reason : Option String}
    (h : ∀ text, reason = some text → Text.trimSpace text = "") :
    finishReasons (ps ++ [.finish reason]) = finishReasons ps := by
  rw [finishReasons_append]
  cases reason with
  | none => exact List.append_nil _
  | some text =>
      unfold finishReasons
      rw [List.filterMap_cons, List.filterMap_nil]
      dsimp only
      rw [if_neg fun hne => hne (h text rfl)]
      exact List.append_nil _

/-- A piece that changes nothing. -/
theorem Gathered.congr {qs : List Piece} (h : Gathered names reason s ps)
    (htext : ∀ p : Part, partText p qs = partText p ps)
    (htools : ∀ k, toolDeltas k qs = toolDeltas k ps)
    (hreasons : finishReasons qs = finishReasons ps) : Gathered names reason s qs where
  sound := h.sound
  text := fun p => (h.text p).trans (htext p).symm
  started := fun p => by
    rw [htext]
    exact h.started p
  tools := fun k => by
    rw [htools]
    exact h.tools k
  running := hreasons ▸ h.running
  status := hreasons ▸ h.status

theorem partText_finish (p : Part) (finish : Option String) :
    partText p (ps ++ [.finish finish]) = partText p ps := by
  rw [partText_concat]
  exact String.append_empty

theorem toolDeltas_finish (k : ℤ) (finish : Option String) :
    toolDeltas k (ps ++ [.finish finish]) = toolDeltas k ps := by
  rw [toolDeltas_append]
  exact List.append_nil _

theorem markNameless_of_named (h : ∀ tool ∈ s.tools, tool.name ≠ "") : markNameless s = s := by
  unfold markNameless
  refine if_neg fun hany => ?_
  obtain ⟨tool, htool, hname⟩ := List.any_eq_true.mp hany
  exact h tool htool (of_decide_eq_true hname)

/-- A tool call with deltas has a name. -/
theorem Gathered.named (h : Gathered names reason s ps) : ∀ tool ∈ s.tools, tool.name ≠ "" := by
  intro tool htool
  have hfind := h.sound.sorted.findTool htool
  have hcollected := h.tools tool.chatIndex
  rw [hfind] at hcollected
  cases hdeltas : toolDeltas tool.chatIndex ps with
  | nil =>
      rw [hdeltas] at hcollected
      cases hcollected
  | cons first rest =>
      rw [hdeltas] at hcollected
      obtain ⟨t, ht, -, -, -, hannounced, -⟩ := hcollected
      cases ht
      exact (h.sound.announced _ tool hfind hannounced).2

/-- A tool call with deltas keeps what it has collected when it is done. -/
theorem collected_ended {found : Option StreamTool} {deltas : List ToolCallResponse}
    (h : Collected names found deltas) : Collected names (found.map ended) deltas := by
  cases deltas with
  | nil =>
      rw [show found = none from h]
      exact rfl
  | cons first rest =>
      obtain ⟨tool, rfl, hid, hname, harguments, hannounced, hcustom⟩ := h
      exact ⟨ended tool, rfl, hid, hname, harguments, hannounced, hcustom⟩

/-- The items end, under another status. -/
theorem Gathered.finish (codec : ArgumentsCodec) (h : Gathered names reason s ps)
    (hcreated : s.sentCreated = true) {finish : Option String}
    (hnext : Next reason ps (.finish finish)) :
    (convertFinish codec finish s).error = none ∧
      Gathered names reason (convertFinish codec finish s).state (ps ++ [.finish finish]) := by
  by_cases hblank : ∀ text, finish = some text → Text.trimSpace text = ""
  · have hsame : convertFinish codec finish s = ⟨s, [], none⟩ := by
      unfold convertFinish
      cases finish with
      | none => rfl
      | some text =>
          dsimp only
          rw [if_neg fun hne => hne (hblank text rfl)]
    rw [hsame]
    exact ⟨rfl, h.congr (fun p => partText_finish p finish) (fun k => toolDeltas_finish k finish)
      (finishReasons_blank hblank)⟩
  · obtain ⟨text, hfinish, htext⟩ : ∃ text, finish = some text ∧ Text.trimSpace text ≠ "" := by
      by_contra hnone
      refine hblank fun text hsome => ?_
      by_contra hne
      exact hnone ⟨text, hsome, hne⟩
    have hreason := hnext.reason text (by rw [hfinish]) htext
    rw [hreason] at hfinish htext
    rw [hfinish]
    have hconvert : convertFinish codec (some reason) s =
        .emit (doneDeltaEvents codec (s.applyFinishReason reason)) := if_pos htext
    have hreasons : finishReasons (ps ++ [.finish (some reason)]) ≠ [] := by
      rw [finishReasons_finish reason htext]
      exact List.append_ne_nil_of_right_ne_nil _ (List.cons_ne_nil _ _)
    rw [hconvert, applyFinishReason_eq]
    refine ⟨rfl, ?_⟩
    change Gathered names reason (doneDeltaEvents codec _).1 _
    generalize hstatus : responsesStatusFromChatFinishReason reason = status
    have hstart := relabel_emission codec h.sound hcreated status.1 status.2
    have hitem := item_relabel s status.1 status.2
    have hclosing := doneDeltaEvents_closing codec hstart.sound hstart.created
    have hmark : markNameless (relabel s status.1 status.2) = relabel s status.1 status.2 :=
      markNameless_of_named h.named
    generalize doneDeltaEvents codec (relabel s status.1 status.2) = result at hclosing ⊢
    refine ⟨hclosing.emission.sound, fun p => ?_, fun p => ?_, fun k => ?_,
      fun hnil => absurd hnil hreasons, ?_⟩
    · rw [hclosing.text, hitem, partText_finish]
      exact h.text p
    · rw [hclosing.started, hitem, partText_finish]
      exact h.started p
    · rw [hclosing.tools, toolDeltas_finish]
      exact collected_ended (h.tools k)
    · rw [if_neg hreasons, hstatus, hclosing.status, hclosing.incompleteDetails, hmark]
      rfl

end step

end MaxApi.Responses
