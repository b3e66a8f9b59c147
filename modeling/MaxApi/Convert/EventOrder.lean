import MaxApi.Convert.ClaudeStream
import MaxApi.Convert.OpenAIToClaude

/-! # Conversions: the order of the events that are made of chunks

The events that the relay makes of the chunks of an OpenAI stream form a well-formed Claude stream
exactly if the chunks are `Convertible` (`relay_wellFormed_iff`): the stream is closed by a chunk
that brings its own usage or by one without choices, the first chunk is not converted twice, the
tool calls are in one group that nothing interrupts, and the first chunk does not hold tool calls
that later chunks continue although it only converts the first of them. -/

namespace MaxApi.Convert

open Dto

variable {J : Type} {codec : ObjectCodec J}

/-! ### Tool calls in order -/

/-- The offset and the name of each tool call. -/
def namedOffsets (toolCalls : List (ToolCallResponse × ℕ)) : List (ℤ × String) :=
  toolCalls.map fun t => (toolOffset t, t.1.function.name)

/-- The number of tool calls after the deltas, if each first has a name, then has none, and the
offsets are counted up from `m`. -/
def announce : ℕ → List (ℤ × String) → Option ℕ
  | m, [] => some m
  | m, (i, name) :: rest =>
      if name = "" then if 0 ≤ i ∧ i < m then announce m rest else none
      else if i = m then announce (m + 1) rest
      else none

/-- The tool calls of a chunk with their positions. -/
def chunkTools (response : ChatCompletionsStreamResponse) : List (ToolCallResponse × ℕ) :=
  match response.choices with
  | [] => []
  | choice :: _ => choice.delta.toolCalls.zipIdx

/-- Every tool call first appears with a name, goes on without, and the tool calls are numbered in
the order in which they appear. -/
def ToolsInOrder (chunks : List ChatCompletionsStreamResponse) : Prop :=
  (announce 0 (chunks.flatMap fun c => namedOffsets (chunkTools c))).isSome = true

theorem announce_cons (m : ℕ) (i : ℤ) (name : String) (rest : List (ℤ × String)) :
    announce m ((i, name) :: rest) =
      if name = "" then if 0 ≤ i ∧ i < m then announce m rest else none
      else if i = m then announce (m + 1) rest
      else none := rfl

theorem announce_append (as bs : List (ℤ × String)) (m : ℕ) :
    announce m (as ++ bs) = (announce m as).bind fun m => announce m bs := by
  induction as generalizing m with
  | nil => rfl
  | cons a as ih =>
      obtain ⟨i, name⟩ := a
      rw [List.cons_append, announce_cons, announce_cons]
      split_ifs
      · exact ih m
      · rfl
      · exact ih (m + 1)
      · rfl

theorem announce_le {l : List (ℤ × String)} {m m' : ℕ} (h : announce m l = some m') : m ≤ m' := by
  induction l generalizing m with
  | nil => exact Nat.le_of_eq (Option.some.inj h)
  | cons a l ih =>
      obtain ⟨i, name⟩ := a
      rw [announce_cons] at h
      split_ifs at h
      · exact ih h
      · have := ih h
        omega

/-- The number of tool calls that have a name. -/
def named (l : List (ℤ × String)) : ℕ := l.countP fun a => a.2 ≠ ""

theorem announce_eq {l : List (ℤ × String)} {m m' : ℕ} (h : announce m l = some m') :
    m' = m + named l := by
  induction l generalizing m with
  | nil => exact (Option.some.inj h).symm
  | cons a l ih =>
      obtain ⟨i, name⟩ := a
      rw [announce_cons] at h
      unfold named at ih ⊢
      rw [List.countP_cons]
      split_ifs at h with hname hi hi
      · rw [ih h]
        simp [hname]
      · rw [ih h]
        simp [hname]
        omega

/-- The tool calls that have been announced first may be counted alone. -/
theorem announce_below {l : List (ℤ × String)} {k m m' : ℕ} (hk : k ≤ m)
    (h : announce m l = some m') (hbelow : ∀ a ∈ l, a.1 < k) :
    announce k l = some k ∧ m' = m := by
  induction l generalizing m with
  | nil => exact ⟨rfl, (Option.some.inj h).symm⟩
  | cons a l ih =>
      obtain ⟨i, name⟩ := a
      have hi : i < k := hbelow (i, name) List.mem_cons_self
      have hrest : ∀ a ∈ l, a.1 < k := fun a ha => hbelow a (List.mem_cons_of_mem _ ha)
      rw [announce_cons] at h ⊢
      by_cases hname : name = ""
      · rw [if_pos hname] at h ⊢
        by_cases hnonneg : 0 ≤ i ∧ i < m
        · rw [if_pos hnonneg] at h
          rw [if_pos ⟨hnonneg.1, hi⟩]
          exact ih hk h hrest
        · rw [if_neg hnonneg] at h
          cases h
      · rw [if_neg hname, if_neg (by omega)] at h
        cases h

/-! ### The condition -/

/-- The tool blocks of a stream: not opened yet, open, or closed. -/
inductive ToolGroup where
  | unopened
  | opened
  | closed
  deriving DecidableEq

/-- The tool blocks, how many of them were started, and whether a tool call was not converted when
it first appeared. -/
structure ToolState where
  group : ToolGroup
  started : ℕ
  missed : Bool
  deriving DecidableEq

/-- The chunk shows reasoning or text. -/
def shows (delta : ChatCompletionsStreamResponseChoiceDelta) : Prop :=
  delta.getReasoningContent ≠ "" ∨ delta.getContentString ≠ ""

instance (delta : ChatCompletionsStreamResponseChoiceDelta) : Decidable (shows delta) :=
  inferInstanceAs (Decidable (_ ∨ _))

/-- The tool calls of a delta that have a name. -/
def namedCalls (delta : ChatCompletionsStreamResponseChoiceDelta) : ℕ :=
  named (namedOffsets delta.toolCalls.zipIdx)

/-- Tool calls do not come after the group is closed, and once a tool call was missed only those
that were started go on. -/
def Fits (s : ToolState) (delta : ChatCompletionsStreamResponseChoiceDelta) : Prop :=
  delta.toolCalls = [] ∨
    (s.group ≠ .closed ∧ (s.missed = true → ∀ t ∈ delta.toolCalls.zipIdx, toolOffset t < s.started))

/-- After a delta that is converted. -/
def ToolState.convert (s : ToolState) (delta : ChatCompletionsStreamResponseChoiceDelta) :
    ToolState :=
  if delta.toolCalls ≠ [] then
    { s with group := .opened, started := s.started + namedCalls delta }
  else if shows delta ∧ s.group = .opened then { s with group := .closed }
  else s

/-- After a delta that is not converted. -/
def ToolState.drop (s : ToolState) (delta : ChatCompletionsStreamResponseChoiceDelta) :
    ToolState :=
  { s with missed := s.missed || decide (0 < namedCalls delta) }

/-- After the first chunk, of which the first tool call, and then reasoning or text is
converted. -/
def ToolState.first (response : ChatCompletionsStreamResponse) : ToolState :=
  match response.choices with
  | [] => ⟨.unopened, 0, false⟩
  | choice :: _ =>
      if choice.delta.toolCalls = [] then ⟨.unopened, 0, false⟩
      else ⟨if shows choice.delta then .closed else .opened, 1,
        decide (1 < namedCalls choice.delta)⟩

/-- The usage is known after the call. -/
def reportsUsage : Call → Bool
  | .handleStreamFormat response => response.usage.isSome
  | .handleFinalResponse _ _ => true

/-- From the second chunk on, the calls keep the order and get to the end; `known` says whether a
usage is known. -/
def Orderly : ToolState → Bool → List Call → Prop
  | _, _, [] => False
  | s, known, call :: calls =>
      match call.response.choices with
      | [] => (known || reportsUsage call) = true ∨ Orderly s (known || reportsUsage call) calls
      | choice :: _ =>
          match doneReason choice, call.response.usage with
          | none, _ => Fits s choice.delta ∧
              Orderly (s.convert choice.delta) (known || reportsUsage call) calls
          | some _, none => Orderly (s.drop choice.delta) (known || reportsUsage call) calls
          | some _, some _ => Fits s choice.delta

/-- The first chunk closes the stream and brings its usage, or the others do. -/
def Convertible (chunks : List ChatCompletionsStreamResponse)
    (final : ChatCompletionsStreamResponse) (usage : Usage) : Prop :=
  match chunks with
  | [] => False
  | first :: rest =>
      match first.choices.head?.bind doneReason with
      | some _ => first.usage.isSome = true
      | none => rest ≠ [] ∧
          Orderly (.first first) first.usage.isSome (relayCalls rest final usage)

/-! ### Blocks in step -/

/-- What is remembered describes the open blocks. -/
def InStep (info : ClaudeConvertInfo) (next : ℤ) (live : List (ℤ × BlockType)) : Prop :=
  match info.lastMessagesType with
  | .noMessage => live = [] ∧ info.index = next
  | .text => live = [(info.index, .text)] ∧ next = info.index + 1
  | .thinking => live = [(info.index, .thinking)] ∧ next = info.index + 1
  | .tools => ∃ n : ℕ, info.toolCallMaxIndexOffset = n ∧
      live = toolBlocks info.toolCallBaseIndex (n + 1) ∧
      next = info.toolCallBaseIndex + (n + 1 : ℕ)

theorem stopOpenBlocks_tools {info : ClaudeConvertInfo}
    (h : info.lastMessagesType = .tools) :
    stopOpenBlocks (J := J) info =
      toolStops info.toolCallBaseIndex (info.toolCallMaxIndexOffset + 1).toNat := by
  unfold stopOpenBlocks
  rw [h]
  rfl

theorem accept_stop_one (next i : ℤ) (t : BlockType) :
    acceptAll (.body next [(i, t)]) [(generateStopBlock i : ClaudeResponse J)] =
      some (.body next []) := by
  unfold generateStopBlock
  rw [acceptAll_cons, view_stop, accept_stop, if_pos ⟨(i, t), List.mem_singleton_self _, rfl⟩]
  simp

/-- The open blocks are stopped. -/
theorem stopOpenBlocks_inStep {info : ClaudeConvertInfo} {next : ℤ} {live : List (ℤ × BlockType)}
    (h : InStep info next live) :
    acceptAll (.body next live) (stopOpenBlocks (J := J) info) = some (.body next []) := by
  unfold InStep at h
  cases hlast : info.lastMessagesType with
  | noMessage =>
      rw [hlast] at h
      unfold stopOpenBlocks
      rw [hlast, h.1]
      rfl
  | text =>
      rw [hlast] at h
      unfold stopOpenBlocks
      rw [hlast, h.1]
      exact accept_stop_one next info.index .text
  | thinking =>
      rw [hlast] at h
      unfold stopOpenBlocks
      rw [hlast, h.1]
      exact accept_stop_one next info.index .thinking
  | tools =>
      rw [hlast] at h
      obtain ⟨n, hmax, hlive, _⟩ := h
      have hn : (info.toolCallMaxIndexOffset + 1).toNat = n + 1 := by omega
      rw [stopOpenBlocks_tools hlast, hn, hlive]
      exact acceptAll_toolStops next info.toolCallBaseIndex (n + 1)

theorem advance_inStep {info : ClaudeConvertInfo} {next : ℤ} {live : List (ℤ × BlockType)}
    (h : InStep info next live) :
    acceptAll (.body next live) (stopOpenBlocksAndAdvance (J := J) info).1 =
        some (.body next []) ∧
      (stopOpenBlocksAndAdvance (J := J) info).2.lastMessagesType = .noMessage ∧
      (stopOpenBlocksAndAdvance (J := J) info).2.index = next := by
  have hstop := stopOpenBlocks_inStep (J := J) h
  unfold InStep at h
  unfold stopOpenBlocksAndAdvance
  cases hlast : info.lastMessagesType with
  | noMessage =>
      rw [hlast] at h
      rw [h.1]
      exact ⟨rfl, hlast, h.2⟩
  | text =>
      rw [hlast] at h
      exact ⟨hstop, rfl, h.2.symm⟩
  | thinking =>
      rw [hlast] at h
      exact ⟨hstop, rfl, h.2.symm⟩
  | tools =>
      rw [hlast] at h
      obtain ⟨n, hmax, _, hnext⟩ := h
      refine ⟨hstop, rfl, ?_⟩
      dsimp only
      omega

/-- Neither the usage nor the end of the message is touched by stopping blocks. -/
theorem advance_keeps (info : ClaudeConvertInfo) :
    (stopOpenBlocksAndAdvance (J := J) info).2.usage = info.usage ∧
      (stopOpenBlocksAndAdvance (J := J) info).2.done = info.done := by
  unfold stopOpenBlocksAndAdvance
  cases info.lastMessagesType <;> exact ⟨rfl, rfl⟩

/-! ### Tool calls -/

theorem toolEvents_cases (base : ℤ) (t : ToolCallResponse × ℕ) :
    toolEvents codec base t =
      (if t.1.function.name ≠ "" then
        [.contentBlockStart (base + toolOffset t)
          (.toolUseBlock t.1.id t.1.function.name (some codec.emptyObject))] else []) ++
      (if t.1.function.arguments ≠ "" then
        [.contentBlockDelta (base + toolOffset t) (.inputJsonDelta t.1.function.arguments)]
        else []) := rfl

/-- The arguments of a block that is open. -/
theorem accept_arguments {next i : ℤ} {live : List (ℤ × BlockType)} (h : (i, .toolUse) ∈ live)
    (arguments : String) :
    acceptAll (.body next live)
        (if arguments ≠ "" then
          [(.contentBlockDelta i (.inputJsonDelta arguments) : ClaudeResponse J)] else []) =
      some (.body next live) := by
  by_cases ha : arguments = ""
  · rw [if_neg (not_not_intro ha)]
    rfl
  · rw [if_pos ha, acceptAll_cons, view_inputJsonDelta, accept_delta, if_pos h]
    rfl

/-- A tool call that is continued. -/
theorem toolEvents_old {base : ℤ} {k : ℕ} {t : ToolCallResponse × ℕ}
    (hname : t.1.function.name = "") (hle : 0 ≤ toolOffset t) (hlt : toolOffset t < k) :
    acceptAll (.body (base + k) (toolBlocks base k)) (toolEvents codec base t) =
      some (.body (base + k) (toolBlocks base k)) := by
  rw [toolEvents_cases, if_neg (not_not_intro hname), List.nil_append]
  exact accept_arguments (mem_toolBlocks.mpr ⟨by omega, by omega, rfl⟩) _

/-- A tool call that is started. -/
theorem toolEvents_new {base : ℤ} {k : ℕ} {t : ToolCallResponse × ℕ}
    (hname : t.1.function.name ≠ "") (hi : toolOffset t = k) :
    acceptAll (.body (base + k) (toolBlocks base k)) (toolEvents codec base t) =
      some (.body (base + (k + 1 : ℕ)) (toolBlocks base (k + 1))) := by
  rw [toolEvents_cases, if_pos hname, hi, List.singleton_append, acceptAll_cons, view_startTool,
    accept_start, if_pos rfl, ← toolBlocks_succ]
  have hnext : base + (k : ℤ) + 1 = base + ((k + 1 : ℕ) : ℤ) := by omega
  rw [hnext]
  exact accept_arguments (mem_toolBlocks.mpr ⟨by omega, by omega, rfl⟩) _

theorem maxToolOffset_cons (n : ℤ) (t : ToolCallResponse × ℕ) (ts : List (ToolCallResponse × ℕ)) :
    maxToolOffset n (t :: ts) =
      maxToolOffset (if n < toolOffset t then toolOffset t else n) ts := rfl

theorem le_maxToolOffset (ts : List (ToolCallResponse × ℕ)) (n : ℤ) : n ≤ maxToolOffset n ts := by
  induction ts generalizing n with
  | nil => exact Int.le_refl n
  | cons t ts ih =>
      rw [maxToolOffset_cons]
      have := ih (if n < toolOffset t then toolOffset t else n)
      split_ifs at this ⊢ <;> omega

theorem toolOffset_le_max {ts : List (ToolCallResponse × ℕ)} {t : ToolCallResponse × ℕ}
    (h : t ∈ ts) (n : ℤ) : toolOffset t ≤ maxToolOffset n ts := by
  induction ts generalizing n with
  | nil => cases h
  | cons a ts ih =>
      rw [maxToolOffset_cons]
      rcases List.mem_cons.mp h with rfl | h
      · have := le_maxToolOffset ts (if n < toolOffset t then toolOffset t else n)
        split_ifs at this ⊢ <;> omega
      · exact ih h _

/-- The tool calls of a group in order: `k` blocks are started before, `k'` after. -/
theorem toolCalls_inStep (codec : ObjectCodec J) (base : ℤ) {k k' : ℕ}
    {ts : List (ToolCallResponse × ℕ)} (h : announce k (namedOffsets ts) = some k') :
    acceptAll (.body (base + k) (toolBlocks base k)) (ts.flatMap (toolEvents codec base)) =
        some (.body (base + k') (toolBlocks base k')) ∧
      maxToolOffset ((k - 1 : ℕ) : ℤ) ts = ((k' - 1 : ℕ) : ℤ) := by
  induction ts generalizing k with
  | nil =>
      rw [← Option.some.inj h]
      exact ⟨rfl, rfl⟩
  | cons t ts ih =>
      rw [namedOffsets, List.map_cons, announce_cons] at h
      rw [List.flatMap_cons, maxToolOffset_cons]
      by_cases hname : t.1.function.name = ""
      · rw [if_pos hname] at h
        by_cases hi : 0 ≤ toolOffset t ∧ toolOffset t < k
        · rw [if_pos hi] at h
          rw [acceptAll_append_some (toolEvents_old hname hi.1 hi.2), if_neg (by omega)]
          exact ih h
        · rw [if_neg hi] at h
          cases h
      · rw [if_neg hname] at h
        by_cases hi : toolOffset t = k
        · rw [if_pos hi] at h
          rw [acceptAll_append_some (toolEvents_new hname hi)]
          have hmax : (if ((k - 1 : ℕ) : ℤ) < toolOffset t then toolOffset t
              else ((k - 1 : ℕ) : ℤ)) = ((k + 1 - 1 : ℕ) : ℤ) := by
            split_ifs <;> omega
          rw [hmax]
          exact ih h
        · rw [if_neg hi] at h
          cases h

/-- Where a tool call that has been announced was never started, no block is started any more. -/
theorem toolCalls_stuck (codec : ObjectCodec J) (base : ℤ) {d m m' : ℕ}
    {ts : List (ToolCallResponse × ℕ)} (hd : d < m)
    (h : announce m (namedOffsets ts) = some m') :
    acceptAll (.body (base + d) (toolBlocks base d)) (ts.flatMap (toolEvents codec base)) = none ∨
      acceptAll (.body (base + d) (toolBlocks base d)) (ts.flatMap (toolEvents codec base)) =
        some (.body (base + d) (toolBlocks base d)) := by
  induction ts generalizing m with
  | nil => exact Or.inr rfl
  | cons t ts ih =>
      rw [namedOffsets, List.map_cons, announce_cons] at h
      rw [List.flatMap_cons]
      by_cases hname : t.1.function.name = ""
      · rw [if_pos hname] at h
        by_cases hi : 0 ≤ toolOffset t ∧ toolOffset t < m
        · rw [if_pos hi] at h
          by_cases hlt : toolOffset t < d
          · rw [acceptAll_append_some (toolEvents_old hname hi.1 hlt)]
            exact ih hd h
          · by_cases ha : t.1.function.arguments = ""
            · rw [toolEvents_cases, if_neg (not_not_intro hname), if_neg (not_not_intro ha)]
              exact ih hd h
            · left
              apply acceptAll_append_none
              rw [toolEvents_cases, if_neg (not_not_intro hname), if_pos ha, List.nil_append,
                acceptAll_cons, view_inputJsonDelta, accept_delta, if_neg]
              · rfl
              · rw [mem_toolBlocks]
                omega
        · rw [if_neg hi] at h
          cases h
      · rw [if_neg hname] at h
        by_cases hi : toolOffset t = m
        · left
          apply acceptAll_append_none
          rw [toolEvents_cases, if_pos hname, List.singleton_append, acceptAll_cons,
            view_startTool, accept_start, if_neg (by omega)]
          rfl
        · rw [if_neg hi] at h
          cases h

/-! ### The tool blocks of a stream -/

/-- What is remembered about the tool blocks, when `m` tool calls have been announced. -/
def GroupIs (s : ToolState) (info : ClaudeConvertInfo) (m : ℕ) : Prop :=
  (s.missed = false → m = s.started) ∧ (s.missed = true → s.started < m) ∧
    match s.group with
    | .unopened => info.lastMessagesType ≠ .tools ∧ s.started = 0
    | .opened => info.lastMessagesType = .tools ∧ (s.started : ℤ) = info.toolCallMaxIndexOffset + 1
    | .closed => info.lastMessagesType ≠ .tools ∧ 1 ≤ s.started

theorem GroupIs.started_le {s : ToolState} {info : ClaudeConvertInfo} {m : ℕ}
    (h : GroupIs s info m) : s.started ≤ m := by
  cases hs : s.missed with
  | false => exact Nat.le_of_eq (h.1 hs).symm
  | true => exact Nat.le_of_lt (h.2.1 hs)

/-- A tool call that has been announced was not started, but will be stopped. -/
def Stuck (info : ClaudeConvertInfo) (phase : Phase) (m : ℕ) : Prop :=
  info.lastMessagesType = .tools ∧
    ∃ d : ℕ, phase = .body (info.toolCallBaseIndex + d) (toolBlocks info.toolCallBaseIndex d) ∧
      (d : ℤ) ≤ info.toolCallMaxIndexOffset ∧ d < m

/-- The chunk's part of the step leads on in order. -/
def GoesOn (s : ToolState) (m : ℕ) (phase : Phase) (out : Converted J) : Prop :=
  ∃ next live, acceptAll phase out.1 = some (.body next live) ∧ InStep out.2 next live ∧
    GroupIs s out.2 m

/-- The chunk's part of the step is out of order, or gets stuck. -/
def GoesWrong (m : ℕ) (phase : Phase) (out : Converted J) : Prop :=
  acceptAll phase out.1 = none ∨
    ∃ phase', acceptAll phase out.1 = some phase' ∧ Stuck out.2 phase' m

theorem accept_blockStart {next : ℤ} {t : BlockType} {start delta : ClaudeResponse J}
    (hstart : view start = .blockStart next t) (hdelta : view delta = .blockDelta next t) :
    acceptAll (.body next []) [start, delta] = some (.body (next + 1) [(next, t)]) := by
  rw [acceptAll_cons, hstart, accept_start, if_pos rfl]
  show acceptAll (.body (next + 1) [(next, t)]) [delta] = _
  rw [acceptAll_cons, hdelta, accept_delta, if_pos (List.mem_singleton_self _)]
  rfl

/-- The type of the messages in a text or thinking block. -/
def shownType : BlockType → LastMessageType
  | .text => .text
  | .thinking => .thinking
  | .toolUse => .tools

/-- A text or thinking block is started. -/
theorem firstBlock_inStep {info : ClaudeConvertInfo} {next : ℤ} {live : List (ℤ × BlockType)}
    (h : InStep info next live) {t : BlockType} (ht : t ≠ .toolUse)
    (hother : info.lastMessagesType ≠ shownType t) {block delta : ClaudeMediaMessage J}
    (hblock : ∀ i, view (.contentBlockStart i block : ClaudeResponse J) = .blockStart i t)
    (hdelta : ∀ i, view (.contentBlockDelta i delta : ClaudeResponse J) = .blockDelta i t) :
    ∃ next' live',
      acceptAll (.body next live) (firstBlock (shownType t) block delta info).1 =
          some (.body next' live') ∧
        InStep (firstBlock (shownType t) block delta info).2 next' live' := by
  obtain ⟨hstops, hlast, hindex⟩ := advance_inStep (J := J) h
  unfold firstBlock
  rw [if_pos hother]
  refine ⟨next + 1, [(next, t)], ?_, ?_⟩
  · dsimp only
    rw [acceptAll_append_some hstops, hindex]
    exact accept_blockStart (hblock next) (hdelta next)
  · unfold InStep
    cases t with
    | text => exact ⟨by rw [← hindex], by rw [← hindex]⟩
    | thinking => exact ⟨by rw [← hindex], by rw [← hindex]⟩
    | toolUse => exact absurd rfl ht

/-- A text or thinking block is started or continued. -/
theorem laterBlock_inStep {info : ClaudeConvertInfo} {next : ℤ} {live : List (ℤ × BlockType)}
    (h : InStep info next live) {t : BlockType} (ht : t ≠ .toolUse)
    {block delta : ClaudeMediaMessage J}
    (hblock : ∀ i, view (.contentBlockStart i block : ClaudeResponse J) = .blockStart i t)
    (hdelta : ∀ i, view (.contentBlockDelta i delta : ClaudeResponse J) = .blockDelta i t) :
    ∃ next' live',
      acceptAll (.body next live) (laterBlock (shownType t) block delta info).1 =
          some (.body next' live') ∧
        InStep (laterBlock (shownType t) block delta info).2 next' live' := by
  by_cases hother : info.lastMessagesType ≠ shownType t
  · have hsame : laterBlock (shownType t) block delta info =
        firstBlock (shownType t) block delta info := by
      unfold laterBlock firstBlock
      rw [if_pos hother, if_pos hother]
    rw [hsame]
    exact firstBlock_inStep h ht hother hblock hdelta
  · unfold laterBlock
    rw [if_neg hother]
    have hlast := not_not.mp hother
    refine ⟨next, live, ?_, ?_⟩
    · dsimp only
      rw [acceptAll_cons, hdelta, accept_delta, if_pos]
      · rfl
      · unfold InStep at h
        rw [hlast] at h
        cases t with
        | text =>
            rw [h.1]
            exact List.mem_singleton_self _
        | thinking =>
            rw [h.1]
            exact List.mem_singleton_self _
        | toolUse => exact absurd rfl ht
    · rw [← hlast]
      exact h

theorem laterBlock_type (type : LastMessageType) (block delta : ClaudeMediaMessage J)
    (info : ClaudeConvertInfo) :
    (laterBlock type block delta info).2.lastMessagesType = type := by
  unfold laterBlock
  split_ifs
  · rfl
  · rfl

theorem openTools_of_tools {info : ClaudeConvertInfo} (h : info.lastMessagesType = .tools) :
    openTools (J := J) info = ([], info) := by
  unfold openTools
  rw [if_neg (not_not_intro h)]

/-- A new group has its first block at the next index. -/
theorem openTools_of_other {info : ClaudeConvertInfo} {next : ℤ} {live : List (ℤ × BlockType)}
    (h : InStep info next live) (hother : info.lastMessagesType ≠ .tools) :
    acceptAll (.body next live) (openTools (J := J) info).1 =
        some (.body ((openTools (J := J) info).2.toolCallBaseIndex + (0 : ℕ))
          (toolBlocks (openTools (J := J) info).2.toolCallBaseIndex 0)) ∧
      (openTools (J := J) info).2.lastMessagesType = .tools ∧
      (openTools (J := J) info).2.toolCallMaxIndexOffset = 0 := by
  obtain ⟨hstops, _, hindex⟩ := advance_inStep (J := J) h
  unfold openTools
  rw [if_pos hother]
  refine ⟨?_, rfl, rfl⟩
  dsimp only
  rw [hstops, hindex]
  have hnext : next + ((0 : ℕ) : ℤ) = next := by omega
  rw [hnext]
  rfl

theorem announce_pos {l : List (ℤ × String)} {m m' : ℕ} (hne : l ≠ [])
    (h : announce m l = some m') : 1 ≤ m' := by
  cases l with
  | nil => exact absurd rfl hne
  | cons a l =>
      obtain ⟨i, name⟩ := a
      rw [announce_cons] at h
      split_ifs at h with _ hi
      · have := announce_le h
        omega
      · have := announce_le h
        omega

theorem namedOffsets_ne_nil {ts : List ToolCallResponse} (h : ts ≠ []) :
    namedOffsets ts.zipIdx ≠ [] := by
  intro hnil
  apply h
  have hlen := congrArg List.length hnil
  unfold namedOffsets at hlen
  rw [List.length_map, List.length_zipIdx] at hlen
  exact List.eq_nil_of_length_eq_zero hlen

/-- After the tool calls of a group in which `k` blocks were started. -/
theorem laterTools_inStep (codec : ObjectCodec J) {info : ClaudeConvertInfo} {phase : Phase}
    {k k' : ℕ} {ts : List ToolCallResponse} (hne : ts ≠ [])
    (hopen : acceptAll phase (openTools (J := J) info).1 =
      some (.body ((openTools (J := J) info).2.toolCallBaseIndex + k)
        (toolBlocks (openTools (J := J) info).2.toolCallBaseIndex k)))
    (hlast : (openTools (J := J) info).2.lastMessagesType = .tools)
    (hmax : (openTools (J := J) info).2.toolCallMaxIndexOffset = ((k - 1 : ℕ) : ℤ))
    (hk : announce k (namedOffsets ts.zipIdx) = some k') :
    ∃ next live, acceptAll phase (laterTools codec ts info).1 = some (.body next live) ∧
      InStep (laterTools codec ts info).2 next live ∧
      (laterTools codec ts info).2.lastMessagesType = .tools ∧
      (laterTools codec ts info).2.toolCallMaxIndexOffset + 1 = k' := by
  have hpos := announce_pos (namedOffsets_ne_nil hne) hk
  obtain ⟨hcalls, hmaxOffset⟩ := toolCalls_inStep codec
    (openTools (J := J) info).2.toolCallBaseIndex hk
  unfold laterTools
  dsimp only
  rw [hmax, hmaxOffset, acceptAll_append_some hopen]
  refine ⟨_, _, hcalls, ?_, hlast, by omega⟩
  unfold InStep
  dsimp only
  rw [hlast]
  refine ⟨k' - 1, rfl, ?_, ?_⟩
  · rw [Nat.sub_add_cancel hpos]
  · rw [Nat.sub_add_cancel hpos]

/-- The group before its next tool calls: `started` blocks of it are open. -/
theorem openTools_inStep {s : ToolState} {info : ClaudeConvertInfo} {next : ℤ}
    {live : List (ℤ × BlockType)} {m : ℕ} (h : InStep info next live) (hg : GroupIs s info m)
    (hclosed : s.group ≠ .closed) :
    acceptAll (.body next live) (openTools (J := J) info).1 =
        some (.body ((openTools (J := J) info).2.toolCallBaseIndex + s.started)
          (toolBlocks (openTools (J := J) info).2.toolCallBaseIndex s.started)) ∧
      (openTools (J := J) info).2.lastMessagesType = .tools ∧
      (openTools (J := J) info).2.toolCallMaxIndexOffset = ((s.started - 1 : ℕ) : ℤ) := by
  obtain ⟨_, _, hg⟩ := hg
  cases hgroup : s.group with
  | closed => exact absurd hgroup hclosed
  | unopened =>
      rw [hgroup] at hg
      rw [hg.2]
      exact openTools_of_other h hg.1
  | opened =>
      rw [hgroup] at hg
      obtain ⟨htools, hstarted⟩ := hg
      unfold InStep at h
      rw [htools] at h
      obtain ⟨n, hn, hlive, hnext⟩ := h
      have hsn : s.started = n + 1 := by omega
      rw [openTools_of_tools htools, hlive, hnext, hsn]
      exact ⟨rfl, htools, hn⟩

/-- Tool calls that fit are in order. -/
theorem laterTools_goesOn {s : ToolState} {info : ClaudeConvertInfo} {next : ℤ}
    {live : List (ℤ × BlockType)} {m m' : ℕ} (h : InStep info next live)
    (hg : GroupIs s info m) {ts : List ToolCallResponse} (hne : ts ≠ [])
    (hm : announce m (namedOffsets ts.zipIdx) = some m') (hclosed : s.group ≠ .closed)
    (hmissed : s.missed = true → ∀ t ∈ ts.zipIdx, toolOffset t < s.started) :
    GoesOn ⟨.opened, s.started + named (namedOffsets ts.zipIdx), s.missed⟩ m' (.body next live)
      (laterTools codec ts info) := by
  obtain ⟨hopen, hlast, hmax⟩ := openTools_inStep (J := J) h hg hclosed
  have hcount := announce_eq hm
  have hle := hg.started_le
  obtain ⟨hfalse, htrue, _⟩ := hg
  have hk : announce s.started (namedOffsets ts.zipIdx) =
      some (s.started + named (namedOffsets ts.zipIdx)) := by
    cases hs : s.missed with
    | false => rw [← hfalse hs, hm, hcount]
    | true =>
        obtain ⟨hbelow, _⟩ := announce_below hle hm fun a ha => by
          obtain ⟨t, ht, rfl⟩ := List.mem_map.mp ha
          exact hmissed hs t ht
        rw [hbelow, ← announce_eq hbelow]
  obtain ⟨next', live', haccept, hstep, htools, hafter⟩ :=
    laterTools_inStep codec hne hopen hlast hmax hk
  refine ⟨next', live', haccept, hstep, fun hs => ?_, fun hs => ?_, htools, hafter.symm⟩
  · have := hfalse hs
    dsimp only
    omega
  · have := htrue hs
    dsimp only
    omega

/-- Tool calls go wrong where one that has been announced is not started and will be stopped. -/
theorem laterTools_stuck {info : ClaudeConvertInfo} {phase : Phase} {d m m' : ℕ}
    {ts : List ToolCallResponse}
    (hopen : acceptAll phase (openTools (J := J) info).1 =
      some (.body ((openTools (J := J) info).2.toolCallBaseIndex + d)
        (toolBlocks (openTools (J := J) info).2.toolCallBaseIndex d)))
    (hlast : (openTools (J := J) info).2.lastMessagesType = .tools)
    (hmax : (d : ℤ) ≤
      maxToolOffset (openTools (J := J) info).2.toolCallMaxIndexOffset ts.zipIdx)
    (hd : d < m) (hm : announce m (namedOffsets ts.zipIdx) = some m') :
    GoesWrong m' phase (laterTools codec ts info) := by
  have hle := announce_le hm
  unfold GoesWrong laterTools
  dsimp only
  rw [acceptAll_append_some hopen]
  rcases toolCalls_stuck codec
      (openTools (J := J) info).2.toolCallBaseIndex hd hm with hnone | hsame
  · exact Or.inl hnone
  · exact Or.inr ⟨_, hsame, hlast, d, rfl, hmax, by omega⟩

/-- Tool calls that do not fit go wrong. -/
theorem laterTools_goesWrong {s : ToolState} {info : ClaudeConvertInfo} {next : ℤ}
    {live : List (ℤ × BlockType)} {m m' : ℕ} (h : InStep info next live)
    (hg : GroupIs s info m) {ts : List ToolCallResponse}
    (hm : announce m (namedOffsets ts.zipIdx) = some m')
    (hunfit : s.group = .closed ∨ (s.missed = true ∧ ∃ t ∈ ts.zipIdx, ¬ toolOffset t < s.started)) :
    GoesWrong m' (.body next live) (laterTools codec ts info) := by
  by_cases hclosed : s.group = .closed
  · have hle := hg.started_le
    obtain ⟨_, _, hg⟩ := hg
    rw [hclosed] at hg
    obtain ⟨hother, hpos⟩ := hg
    obtain ⟨hopen, hlast, hmax⟩ := openTools_of_other (J := J) h hother
    have hd : 0 < m := by omega
    apply laterTools_stuck hopen hlast _ hd hm
    rw [hmax]
    exact le_maxToolOffset _ 0
  · obtain ⟨hmissed, t, ht, hoffset⟩ := hunfit.resolve_left hclosed
    obtain ⟨hopen, hlast, _⟩ := openTools_inStep (J := J) h hg hclosed
    apply laterTools_stuck hopen hlast _ (hg.2.1 hmissed) hm
    exact Int.le_trans (Int.not_lt.mp hoffset) (toolOffset_le_max ht _)

/-! ### The part of a step that a delta makes -/

theorem view_thinking (s : String) :
    (∀ i, view (.contentBlockStart i (.thinkingBlock "") : ClaudeResponse J) =
        .blockStart i .thinking) ∧
      ∀ i, view (.contentBlockDelta i (.thinkingDelta s) : ClaudeResponse J) =
        .blockDelta i .thinking :=
  ⟨fun i => view_startThinking i "", fun i => view_thinkingDelta i s⟩

theorem view_text (s : String) :
    (∀ i, view (.contentBlockStart i (.textBlock "") : ClaudeResponse J) = .blockStart i .text) ∧
      ∀ i, view (.contentBlockDelta i (.textDelta s) : ClaudeResponse J) = .blockDelta i .text :=
  ⟨fun i => view_startText i "", fun i => view_textDelta i s⟩

/-- After text or thinking, open tool blocks are closed. -/
theorem groupIs_shown {s : ToolState} {info : ClaudeConvertInfo} (info' : ClaudeConvertInfo)
    {next : ℤ} {live : List (ℤ × BlockType)} {m : ℕ} (h : InStep info next live)
    (hg : GroupIs s info m) (hlast : info'.lastMessagesType ≠ .tools) :
    GroupIs (if s.group = .opened then { s with group := .closed } else s) info' m := by
  obtain ⟨hfalse, htrue, hg⟩ := hg
  cases hgroup : s.group with
  | unopened =>
      rw [hgroup] at hg
      rw [if_neg (by decide)]
      refine ⟨hfalse, htrue, ?_⟩
      rw [hgroup]
      exact ⟨hlast, hg.2⟩
  | closed =>
      rw [hgroup] at hg
      rw [if_neg (by decide)]
      refine ⟨hfalse, htrue, ?_⟩
      rw [hgroup]
      exact ⟨hlast, hg.2⟩
  | opened =>
      rw [hgroup] at hg
      obtain ⟨htools, hstarted⟩ := hg
      unfold InStep at h
      rw [htools] at h
      obtain ⟨n, hn, _⟩ := h
      rw [if_pos rfl]
      exact ⟨hfalse, htrue, hlast, by dsimp only; omega⟩

/-- A delta that fits is in order. -/
theorem laterDelta_goesOn {s : ToolState} {info : ClaudeConvertInfo} {next : ℤ}
    {live : List (ℤ × BlockType)} {m m' : ℕ} (h : InStep info next live)
    (hg : GroupIs s info m) {delta : ChatCompletionsStreamResponseChoiceDelta}
    (hm : announce m (namedOffsets delta.toolCalls.zipIdx) = some m') (hfits : Fits s delta) :
    GoesOn (s.convert delta) m' (.body next live) (laterDelta codec delta info) := by
  unfold laterDelta ToolState.convert
  by_cases htools : delta.toolCalls = []
  · rw [if_neg (not_not_intro htools), if_neg (not_not_intro htools)]
    have hmm : m' = m := by
      rw [htools] at hm
      exact (Option.some.inj hm).symm
    rw [hmm]
    by_cases hreasoning : delta.getReasoningContent = ""
    · rw [if_neg (not_not_intro hreasoning)]
      by_cases hcontent : delta.getContentString = ""
      · rw [if_neg (not_not_intro hcontent), if_neg]
        · exact ⟨next, live, rfl, h, hg⟩
        · rintro ⟨hshows, _⟩
          exact hshows.elim (absurd hreasoning) (absurd hcontent)
      · rw [if_pos hcontent]
        obtain ⟨hblock, hdelta⟩ := view_text (J := J) delta.getContentString
        obtain ⟨next', live', haccept, hstep⟩ := laterBlock_inStep h (by decide) hblock hdelta
        refine ⟨next', live', haccept, hstep, ?_⟩
        have hgroup := groupIs_shown (laterBlock .text (.textBlock "")
          (.textDelta delta.getContentString : ClaudeMediaMessage J) info).2 h hg
          (by rw [laterBlock_type]; decide)
        have hshows : shows delta := Or.inr hcontent
        simpa [hshows] using hgroup
    · rw [if_pos hreasoning]
      obtain ⟨hblock, hdelta⟩ := view_thinking (J := J) delta.getReasoningContent
      obtain ⟨next', live', haccept, hstep⟩ := laterBlock_inStep h (by decide) hblock hdelta
      refine ⟨next', live', haccept, hstep, ?_⟩
      have hgroup := groupIs_shown (laterBlock .thinking (.thinkingBlock "")
        (.thinkingDelta delta.getReasoningContent : ClaudeMediaMessage J) info).2 h hg
        (by rw [laterBlock_type]; decide)
      have hshows : shows delta := Or.inl hreasoning
      simpa [hshows] using hgroup
  · rw [if_pos htools, if_pos htools]
    obtain ⟨hclosed, hmissed⟩ := hfits.resolve_left htools
    exact laterTools_goesOn h hg htools hm hclosed hmissed

/-- A delta that does not fit goes wrong. -/
theorem laterDelta_goesWrong {s : ToolState} {info : ClaudeConvertInfo} {next : ℤ}
    {live : List (ℤ × BlockType)} {m m' : ℕ} (h : InStep info next live)
    (hg : GroupIs s info m) {delta : ChatCompletionsStreamResponseChoiceDelta}
    (hm : announce m (namedOffsets delta.toolCalls.zipIdx) = some m') (hunfit : ¬ Fits s delta) :
    GoesWrong m' (.body next live) (laterDelta codec delta info) := by
  unfold Fits at hunfit
  push Not at hunfit
  obtain ⟨htools, hunfit⟩ := hunfit
  unfold laterDelta
  rw [if_pos htools]
  apply laterTools_goesWrong h hg hm
  by_cases hclosed : s.group = .closed
  · exact Or.inl hclosed
  · obtain ⟨hmissed, t, ht, hle⟩ := hunfit hclosed
    exact Or.inr ⟨hmissed, t, ht, by omega⟩

/-- A delta that is not converted may miss a tool call. -/
theorem groupIs_drop {s : ToolState} {info info' : ClaudeConvertInfo} {m m' : ℕ}
    (hg : GroupIs s info m) {delta : ChatCompletionsStreamResponseChoiceDelta}
    (hm : announce m (namedOffsets delta.toolCalls.zipIdx) = some m')
    (hlast : info'.lastMessagesType = info.lastMessagesType)
    (hmax : info'.toolCallMaxIndexOffset = info.toolCallMaxIndexOffset) :
    GroupIs (s.drop delta) info' m' := by
  have hcount := announce_eq hm
  have hle := hg.started_le
  obtain ⟨hfalse, htrue, hg⟩ := hg
  unfold ToolState.drop namedCalls
  refine ⟨fun hs => ?_, fun hs => ?_, ?_⟩
  · rw [Bool.or_eq_false_iff, decide_eq_false_iff_not] at hs
    have := hfalse hs.1
    dsimp only
    omega
  · rw [Bool.or_eq_true, decide_eq_true_eq] at hs
    dsimp only
    rcases hs with hs | hs
    · have := htrue hs
      omega
    · omega
  · rw [hlast, hmax]
    exact hg

/-- Stopping blocks that were not started is out of order. -/
theorem stopOpenBlocks_stuck {info : ClaudeConvertInfo} {phase : Phase} {m : ℕ}
    (h : Stuck info phase m) : acceptAll phase (stopOpenBlocks (J := J) info) = none := by
  obtain ⟨htools, d, rfl, hmax, _⟩ := h
  rw [stopOpenBlocks_tools htools]
  exact acceptAll_toolStops_none _ _ (by omega)

theorem advance_stuck {info : ClaudeConvertInfo} {phase : Phase} {m : ℕ}
    (h : Stuck info phase m) :
    acceptAll phase (stopOpenBlocksAndAdvance (J := J) info).1 = none := by
  have hstop := stopOpenBlocks_stuck (J := J) h
  unfold stopOpenBlocksAndAdvance
  rw [h.1]
  exact hstop

theorem laterBlock_stuck {info : ClaudeConvertInfo} {phase : Phase} {m : ℕ}
    (h : Stuck info phase m) {type : LastMessageType} (ht : type ≠ .tools)
    (block delta : ClaudeMediaMessage J) :
    acceptAll phase (laterBlock type block delta info).1 = none := by
  unfold laterBlock
  rw [if_pos (by rw [h.1]; exact ht.symm)]
  exact acceptAll_append_none (advance_stuck h) _

/-- A stream that is stuck stays so. -/
theorem laterDelta_stuck {info : ClaudeConvertInfo} {phase : Phase} {m m' : ℕ}
    (h : Stuck info phase m) {delta : ChatCompletionsStreamResponseChoiceDelta}
    (hm : announce m (namedOffsets delta.toolCalls.zipIdx) = some m') :
    GoesWrong m' phase (laterDelta codec delta info) := by
  unfold laterDelta
  by_cases htools : delta.toolCalls = []
  · have hmm : m' = m := by
      rw [htools] at hm
      exact (Option.some.inj hm).symm
    rw [if_neg (not_not_intro htools), hmm]
    by_cases hreasoning : delta.getReasoningContent = ""
    · rw [if_neg (not_not_intro hreasoning)]
      by_cases hcontent : delta.getContentString = ""
      · rw [if_neg (not_not_intro hcontent)]
        exact Or.inr ⟨phase, rfl, h⟩
      · rw [if_pos hcontent]
        exact Or.inl (laterBlock_stuck h (by decide) _ _)
    · rw [if_pos hreasoning]
      exact Or.inl (laterBlock_stuck h (by decide) _ _)
  · rw [if_pos htools]
    obtain ⟨hlast, d, hphase, hmax, hd⟩ := h
    have hopened := openTools_of_tools (J := J) hlast
    apply laterTools_stuck (d := d) _ _ _ hd hm
    · rw [hopened, hphase]
      rfl
    · rw [hopened]
      exact hlast
    · rw [hopened]
      exact Int.le_trans hmax (le_maxToolOffset _ _)

/-- A delta neither ends the message nor changes the usage. -/
theorem laterDelta_keeps (codec : ObjectCodec J) (delta : ChatCompletionsStreamResponseChoiceDelta)
    (info : ClaudeConvertInfo) :
    (laterDelta codec delta info).2.usage = info.usage ∧
      (laterDelta codec delta info).2.done = info.done := by
  have hadvance := advance_keeps (J := J) info
  have hblock : ∀ type block delta, (laterBlock (J := J) type block delta info).2.usage =
      info.usage ∧ (laterBlock (J := J) type block delta info).2.done = info.done := by
    intro type block delta
    unfold laterBlock
    split_ifs
    · exact hadvance
    · exact ⟨rfl, rfl⟩
  have hopen : (openTools (J := J) info).2.usage = info.usage ∧
      (openTools (J := J) info).2.done = info.done := by
    unfold openTools
    split_ifs
    · exact hadvance
    · exact ⟨rfl, rfl⟩
  unfold laterDelta
  split_ifs
  · exact hopen
  · exact hblock _ _ _
  · exact hblock _ _ _
  · exact ⟨rfl, rfl⟩

/-! ### The end of the message -/

/-- The end of a message with a usage. -/
theorem close_inStep {info : ClaudeConvertInfo} {next : ℤ} {live : List (ℤ × BlockType)}
    (h : InStep info next live) (u : Usage) (stopReason : String) :
    acceptAll (.body next live)
        (stopOpenBlocks (J := J) info ++ closingEvents (some u) stopReason) =
      some .stopped := by
  rw [acceptAll_append_some (stopOpenBlocks_inStep h)]
  rfl

/-- Without a usage the message has no `message_delta`. -/
theorem close_without_usage {info : ClaudeConvertInfo} {next : ℤ} {live : List (ℤ × BlockType)}
    (h : InStep info next live) (stopReason : String) :
    acceptAll (.body next live) (stopOpenBlocks (J := J) info ++ closingEvents none stopReason) =
      none := by
  rw [acceptAll_append_some (stopOpenBlocks_inStep h)]
  rfl

/-! ### The calls after the first -/

/-- The calls are not made for the first chunk. -/
def Later (info : RelayInfo) (calls : List Call) : Prop :=
  2 ≤ info.sendResponseCount ∨
    (1 ≤ info.sendResponseCount ∧ ∃ c rest, calls = .handleStreamFormat c :: rest)

theorem prepare_count {info : RelayInfo} {call : Call} {calls : List Call}
    (h : Later info (call :: calls)) : 2 ≤ (call.prepare info).sendResponseCount := by
  rcases h with h | ⟨h, c, rest, heq⟩
  · cases call with
    | handleStreamFormat response => exact Nat.le_succ_of_le h
    | handleFinalResponse response usage => exact h
  · cases heq
    exact Nat.succ_le_succ h

theorem prepare_convert (info : RelayInfo) (call : Call) :
    (call.prepare info).claudeConvertInfo.lastMessagesType =
        info.claudeConvertInfo.lastMessagesType ∧
      (call.prepare info).claudeConvertInfo.done = info.claudeConvertInfo.done ∧
      (call.prepare info).claudeConvertInfo.usage.isSome =
        (info.claudeConvertInfo.usage.isSome || reportsUsage call) := by
  cases call with
  | handleStreamFormat response =>
      refine ⟨rfl, rfl, ?_⟩
      show (response.usage.or info.claudeConvertInfo.usage).isSome = _
      rw [Option.isSome_or, Bool.or_comm]
      rfl
  | handleFinalResponse response usage => exact ⟨rfl, rfl, by simp [Call.prepare, reportsUsage]⟩

theorem prepare_inStep {info : RelayInfo} {next : ℤ} {live : List (ℤ × BlockType)}
    (h : InStep info.claudeConvertInfo next live) (call : Call) :
    InStep (call.prepare info).claudeConvertInfo next live := by
  cases call <;> exact h

theorem prepare_group {s : ToolState} {info : RelayInfo} {m : ℕ}
    (h : GroupIs s info.claudeConvertInfo m) (call : Call) :
    GroupIs s (call.prepare info).claudeConvertInfo m := by
  cases call <;> exact h

theorem prepare_stuck {info : RelayInfo} {phase : Phase} {m : ℕ}
    (h : Stuck info.claudeConvertInfo phase m) (call : Call) :
    Stuck (call.prepare info).claudeConvertInfo phase m := by
  cases call <;> exact h

/-- A call after the first, while the message has not ended. -/
theorem handle_later {info : RelayInfo} {call : Call} {calls : List Call}
    (hlater : Later info (call :: calls)) (hdone : info.claudeConvertInfo.done = false) :
    handle codec info call =
      ((laterChunk codec call.response (call.prepare info).claudeConvertInfo).1,
        let prepared := call.prepare info
        { prepared with
          claudeConvertInfo := call.finish
            (laterChunk codec call.response (call.prepare info).claudeConvertInfo).2 }) := by
  have hcount := prepare_count hlater
  have hd := (prepare_convert info call).2.1
  have hstream : streamResponseOpenAI2Claude codec call.response (call.prepare info) =
      laterChunk codec call.response (call.prepare info).claudeConvertInfo := by
    unfold streamResponseOpenAI2Claude
    rw [hd, hdone, if_neg Bool.false_ne_true, if_neg (by omega)]
  unfold handle
  dsimp only
  rw [hstream]

/-- After the end of the message nothing is emitted. -/
theorem handleAll_done {info : RelayInfo} (h : info.claudeConvertInfo.done = true)
    (calls : List Call) : handleAll codec info calls = [] := by
  induction calls generalizing info with
  | nil => rfl
  | cons call calls ih =>
      have hd := (prepare_convert info call).2.1
      have hnone : streamResponseOpenAI2Claude codec call.response (call.prepare info) =
          ([], (call.prepare info).claudeConvertInfo) := by
        unfold streamResponseOpenAI2Claude
        rw [if_pos (by rw [hd, h])]
      unfold handleAll handle
      dsimp only
      rw [hnone, List.nil_append]
      apply ih
      cases call with
      | handleStreamFormat response => exact hd.trans h
      | handleFinalResponse response usage => rfl

theorem chunkTools_nil {response : ChatCompletionsStreamResponse} (h : response.choices = []) :
    chunkTools response = [] := by
  unfold chunkTools
  rw [h]

theorem chunkTools_cons {response : ChatCompletionsStreamResponse}
    {choice : ChatCompletionsStreamResponseChoice}
    {rest : List ChatCompletionsStreamResponseChoice} (h : response.choices = choice :: rest) :
    chunkTools response = choice.delta.toolCalls.zipIdx := by
  unfold chunkTools
  rw [h]

/-- What a call after the first does to a stream that is in order, and what it means for the
condition. -/
inductive Outcome (s : ToolState) (known : Bool) (call : Call) (phase : Phase) (m' : ℕ)
    (out : Converted J) : Prop
  | ends (haccept : acceptAll phase out.1 = some .stopped) (hdone : out.2.done = true)
      (hall : ∀ calls, Orderly s known (call :: calls))
  | wrong (hwrong : acceptAll phase out.1 = none ∨ (GoesWrong m' phase out ∧ out.2.done = false))
      (hunfit : ∃ choice ∈ call.response.choices, ¬ Fits s choice.delta)
      (hnone : ∀ calls, ¬ Orderly s known (call :: calls))
  | goesOn (s' : ToolState) (hon : GoesOn s' m' phase out)
      (husage : out.2.usage.isSome = (known || reportsUsage call)) (hdone : out.2.done = false)
      (hiff : ∀ calls, Orderly s known (call :: calls) ↔
        Orderly s' (known || reportsUsage call) calls)

section orderly
variable {s : ToolState} {known : Bool} {call : Call}
  {choice : ChatCompletionsStreamResponseChoice} {rest : List ChatCompletionsStreamResponseChoice}

theorem orderly_nil (h : call.response.choices = []) (calls : List Call) :
    Orderly s known (call :: calls) ↔ ((known || reportsUsage call) = true ∨
      Orderly s (known || reportsUsage call) calls) := by
  rw [Orderly, h]

theorem orderly_delta (h : call.response.choices = choice :: rest)
    (hreason : doneReason choice = none) (calls : List Call) :
    Orderly s known (call :: calls) ↔ (Fits s choice.delta ∧
      Orderly (s.convert choice.delta) (known || reportsUsage call) calls) := by
  rw [Orderly, h]
  dsimp only
  rw [hreason]

theorem orderly_dropped (h : call.response.choices = choice :: rest) {reason : String}
    (hreason : doneReason choice = some reason) (husage : call.response.usage = none)
    (calls : List Call) :
    Orderly s known (call :: calls) ↔
      Orderly (s.drop choice.delta) (known || reportsUsage call) calls := by
  rw [Orderly, h]
  dsimp only
  rw [hreason, husage]

theorem orderly_finish (h : call.response.choices = choice :: rest) {reason : String}
    (hreason : doneReason choice = some reason) {u : Usage} (husage : call.response.usage = some u)
    (calls : List Call) :
    Orderly s known (call :: calls) ↔ Fits s choice.delta := by
  rw [Orderly, h]
  dsimp only
  rw [hreason, husage]

end orderly

/-- What goes wrong before the end of the message is not made good by it. -/
theorem goesWrong_close {m : ℕ} {phase : Phase} {out : Converted J} (h : GoesWrong m phase out)
    (events : List (ClaudeResponse J)) :
    acceptAll phase (out.1 ++ stopOpenBlocks out.2 ++ events) = none := by
  rcases h with hnone | ⟨phase', hsome, hstuck⟩
  · rw [List.append_assoc]
    exact acceptAll_append_none hnone _
  · apply acceptAll_append_none
    rw [acceptAll_append_some hsome]
    exact stopOpenBlocks_stuck hstuck

/-- **A step of a stream in order.** -/
theorem laterChunk_outcome (codec : ObjectCodec J) {s : ToolState} {known : Bool}
    {info : ClaudeConvertInfo} {next : ℤ} {live : List (ℤ × BlockType)} {m m' : ℕ}
    (h : InStep info next live) (hg : GroupIs s info m) (hdone : info.done = false) (call : Call)
    (hknown : info.usage.isSome = (known || reportsUsage call))
    (hm : announce m (namedOffsets (chunkTools call.response)) = some m') :
    Outcome s known call (.body next live) m' (laterChunk codec call.response info) := by
  unfold laterChunk
  cases hchoices : call.response.choices with
  | nil =>
      have hmm : m' = m := by
        rw [chunkTools_nil hchoices] at hm
        exact (Option.some.inj hm).symm
      dsimp only
      unfold usageOnly
      have hor : (call.response.usage.or info.usage).isSome = (known || reportsUsage call) := by
        rw [Option.isSome_or, hknown]
        cases call with
        | handleStreamFormat response =>
            show (response.usage.isSome || (known || response.usage.isSome)) =
              (known || response.usage.isSome)
            cases response.usage.isSome <;> cases known <;> rfl
        | handleFinalResponse response usage => simp [reportsUsage]
      cases husage : call.response.usage.or info.usage with
      | none =>
          rw [husage] at hor
          refine .goesOn s ⟨next, live, rfl, h, hmm ▸ hg⟩ hknown hdone fun calls => ?_
          rw [orderly_nil hchoices, ← hor]
          simp
      | some u =>
          rw [husage] at hor
          refine .ends (close_inStep h u _) rfl fun calls => ?_
          rw [orderly_nil hchoices, ← hor]
          exact Or.inl rfl
  | cons choice rest =>
      rw [chunkTools_cons hchoices] at hm
      dsimp only
      unfold laterChoice
      cases hreason : doneReason choice with
      | none =>
          dsimp only
          by_cases hfits : Fits s choice.delta
          · obtain ⟨hu, hd⟩ := laterDelta_keeps codec choice.delta info
            refine .goesOn (s.convert choice.delta) (laterDelta_goesOn h hg hm hfits)
              (by rw [hu, hknown]) (by rw [hd, hdone]) fun calls => ?_
            rw [orderly_delta hchoices hreason]
            exact and_iff_right hfits
          · have hd := (laterDelta_keeps codec choice.delta info).2.trans hdone
            refine .wrong (Or.inr ⟨laterDelta_goesWrong h hg hm hfits, hd⟩)
              ⟨choice, hchoices ▸ List.mem_cons_self, hfits⟩ fun calls => ?_
            rw [orderly_delta hchoices hreason]
            exact fun hall => hfits hall.1
      | some reason =>
          cases husage : call.response.usage with
          | none =>
              exact .goesOn (s.drop choice.delta) ⟨next, live, rfl, h, groupIs_drop hg hm rfl rfl⟩
                hknown hdone (orderly_dropped hchoices hreason husage)
          | some u =>
              dsimp only
              have hreasoned : InStep { info with finishReason := reason } next live := h
              have hgroup : GroupIs s { info with finishReason := reason } m := hg
              by_cases hfits : Fits s choice.delta
              · have hon : GoesOn (s.convert choice.delta) m' (.body next live)
                    (laterDelta codec choice.delta { info with finishReason := reason }) :=
                  laterDelta_goesOn hreasoned hgroup hm hfits
                obtain ⟨next', live', haccept, hstep, _⟩ := hon
                refine .ends ?_ rfl fun calls =>
                  (orderly_finish hchoices hreason husage calls).mpr hfits
                rw [List.append_assoc, acceptAll_append_some haccept]
                exact close_inStep hstep u _
              · refine .wrong (Or.inl (goesWrong_close
                  (laterDelta_goesWrong hreasoned hgroup hm hfits) _))
                  ⟨choice, hchoices ▸ List.mem_cons_self, hfits⟩ fun calls => ?_
                rw [orderly_finish hchoices hreason husage]
                exact hfits

/-- **A step of a stream that is stuck.** -/
theorem laterChunk_stuck (codec : ObjectCodec J) {info : ClaudeConvertInfo} {phase : Phase}
    {m m' : ℕ} (h : Stuck info phase m) (hdone : info.done = false)
    (response : ChatCompletionsStreamResponse)
    (hm : announce m (namedOffsets (chunkTools response)) = some m') :
    acceptAll phase (laterChunk codec response info).1 = none ∨
      (GoesWrong m' phase (laterChunk codec response info) ∧
        (laterChunk codec response info).2.done = false) := by
  unfold laterChunk
  cases hchoices : response.choices with
  | nil =>
      have hmm : m' = m := by
        rw [chunkTools_nil hchoices] at hm
        exact (Option.some.inj hm).symm
      dsimp only
      unfold usageOnly
      cases response.usage.or info.usage with
      | none => exact Or.inr ⟨Or.inr ⟨phase, rfl, hmm ▸ h⟩, hdone⟩
      | some u => exact Or.inl (acceptAll_append_none (stopOpenBlocks_stuck h) _)
  | cons choice rest =>
      rw [chunkTools_cons hchoices] at hm
      dsimp only
      unfold laterChoice
      cases doneReason choice with
      | none =>
          right
          exact ⟨laterDelta_stuck h hm, (laterDelta_keeps codec choice.delta info).2.trans hdone⟩
      | some reason =>
          have hle := announce_le hm
          obtain ⟨hlast, d, hphase, hmax, hd⟩ := h
          cases response.usage with
          | none => exact Or.inr ⟨Or.inr ⟨phase, rfl, hlast, d, hphase, hmax, by omega⟩, hdone⟩
          | some u =>
              have hstuck : Stuck { info with finishReason := reason } phase m :=
                ⟨hlast, d, hphase, hmax, hd⟩
              exact Or.inl (goesWrong_close (laterDelta_stuck hstuck hm) _)

/-! ### Runs -/

/-- The offsets and names of the tool calls of the chunks. -/
def offsetsOf (chunks : List ChatCompletionsStreamResponse) : List (ℤ × String) :=
  chunks.flatMap fun c => namedOffsets (chunkTools c)

theorem announce_cons_isSome {m : ℕ} {c : ChatCompletionsStreamResponse}
    {chunks : List ChatCompletionsStreamResponse}
    (h : (announce m (offsetsOf (c :: chunks))).isSome = true) :
    ∃ m', announce m (namedOffsets (chunkTools c)) = some m' ∧
      (announce m' (offsetsOf chunks)).isSome = true := by
  unfold offsetsOf at h
  rw [List.flatMap_cons, announce_append] at h
  cases hc : announce m (namedOffsets (chunkTools c)) with
  | none =>
      rw [hc] at h
      cases h
  | some m' =>
      rw [hc] at h
      exact ⟨m', rfl, h⟩

theorem relayCalls_cons (c : ChatCompletionsStreamResponse)
    (chunks : List ChatCompletionsStreamResponse) (final : ChatCompletionsStreamResponse)
    (usage : Usage) :
    relayCalls (c :: chunks) final usage = .handleStreamFormat c :: relayCalls chunks final usage :=
  rfl

theorem handleAll_cons (info : RelayInfo) (call : Call) (calls : List Call) :
    handleAll codec info (call :: calls) =
      (handle codec info call).1 ++ handleAll codec (handle codec info call).2 calls := rfl

/-- The remembered state after a call for a chunk other than the first. -/
def after (codec : ObjectCodec J) (info : RelayInfo) (c : ChatCompletionsStreamResponse) :
    RelayInfo :=
  let prepared := (Call.handleStreamFormat c).prepare info
  { prepared with
    claudeConvertInfo := (laterChunk codec c prepared.claudeConvertInfo).2 }

theorem handleAll_later {info : RelayInfo} {c : ChatCompletionsStreamResponse} {calls : List Call}
    (hlater : Later info (.handleStreamFormat c :: calls))
    (hdone : info.claudeConvertInfo.done = false) :
    handleAll codec info (.handleStreamFormat c :: calls) =
      (laterChunk codec c ((Call.handleStreamFormat c).prepare info).claudeConvertInfo).1 ++
        handleAll codec (after codec info c) calls := by
  rw [handleAll_cons, handle_later hlater hdone]
  rfl

theorem handleAll_final {info : RelayInfo} {c : ChatCompletionsStreamResponse} {usage : Usage}
    (hlater : Later info [.handleFinalResponse c usage])
    (hdone : info.claudeConvertInfo.done = false) :
    handleAll codec info [.handleFinalResponse c usage] =
      (laterChunk codec c
        ((Call.handleFinalResponse c usage).prepare info).claudeConvertInfo).1 := by
  rw [handleAll_cons, handle_later hlater hdone]
  exact List.append_nil _

theorem after_later (codec : ObjectCodec J) {info : RelayInfo} {c : ChatCompletionsStreamResponse}
    {calls : List Call}
    (hlater : Later info (.handleStreamFormat c :: calls)) (calls' : List Call) :
    Later (after codec info c) calls' :=
  Or.inl (prepare_count hlater)

section runs
variable {final : ChatCompletionsStreamResponse} {usage : Usage}

/-- A stream that is stuck never gets to its end. -/
theorem stuck_rejected (chunks : List ChatCompletionsStreamResponse) {info : RelayInfo}
    {phase : Phase} {m : ℕ} (h : Stuck info.claudeConvertInfo phase m)
    (hdone : info.claudeConvertInfo.done = false)
    (hlater : Later info (relayCalls chunks final usage))
    (hm : (announce m (offsetsOf (chunks ++ [final]))).isSome = true) :
    acceptAll phase (handleAll codec info (relayCalls chunks final usage)) ≠ some .stopped := by
  induction chunks generalizing info phase m with
  | nil =>
      obtain ⟨m', hm', _⟩ := announce_cons_isSome hm
      have hd : ((Call.handleFinalResponse final usage).prepare info).claudeConvertInfo.done =
          false := hdone
      have hlast : relayCalls [] final usage = [.handleFinalResponse final usage] := rfl
      rw [hlast, handleAll_final hlater hdone]
      rcases laterChunk_stuck codec
          (prepare_stuck h (.handleFinalResponse final usage)) hd final hm' with
        hnone | ⟨hnone | ⟨phase', hsome, _, d, rfl, _⟩, _⟩
      · rw [hnone]
        nofun
      · rw [hnone]
        nofun
      · rw [hsome]
        nofun
  | cons c chunks ih =>
      obtain ⟨m', hm', hrest⟩ := announce_cons_isSome hm
      have hd : ((Call.handleStreamFormat c).prepare info).claudeConvertInfo.done = false := hdone
      rw [relayCalls_cons] at hlater ⊢
      rw [handleAll_later hlater hdone]
      rcases laterChunk_stuck codec
          (prepare_stuck h (.handleStreamFormat c)) hd c hm' with
        hnone | ⟨hnone | ⟨phase', hsome, hstuck⟩, hd'⟩
      · rw [acceptAll_append_none hnone]
        nofun
      · rw [acceptAll_append_none hnone]
        nofun
      · rw [acceptAll_append_some hsome]
        exact ih hstuck hd' (after_later codec hlater _) hrest

/-- **The calls after the first** get from a stream in order to its end exactly if they are
orderly. -/
theorem orderly_iff (chunks : List ChatCompletionsStreamResponse) {s : ToolState} {known : Bool}
    {info : RelayInfo} {next : ℤ} {live : List (ℤ × BlockType)} {m : ℕ}
    (h : InStep info.claudeConvertInfo next live) (hg : GroupIs s info.claudeConvertInfo m)
    (hdone : info.claudeConvertInfo.done = false)
    (hknown : info.claudeConvertInfo.usage.isSome = known)
    (hlater : Later info (relayCalls chunks final usage))
    (hm : (announce m (offsetsOf (chunks ++ [final]))).isSome = true) :
    acceptAll (.body next live) (handleAll codec info (relayCalls chunks final usage)) =
        some .stopped ↔ Orderly s known (relayCalls chunks final usage) := by
  induction chunks generalizing info next live m s known with
  | nil =>
      obtain ⟨m', hm', _⟩ := announce_cons_isSome hm
      have hlast : relayCalls [] final usage = [.handleFinalResponse final usage] := rfl
      obtain ⟨_, hd, hu⟩ := prepare_convert info (.handleFinalResponse final usage)
      rw [hknown] at hu
      rw [hlast, handleAll_final hlater hdone]
      have hout : Outcome s known (.handleFinalResponse final usage) (.body next live) m'
          (laterChunk codec final
            ((Call.handleFinalResponse final usage).prepare info).claudeConvertInfo) :=
        laterChunk_outcome codec (prepare_inStep h _) (prepare_group hg _) (hd.trans hdone) _ hu hm'
      rcases hout with ⟨haccept, _, hall⟩ | ⟨hwrong, _, hnone⟩ |
        ⟨s', ⟨next', live', haccept, _⟩, _, _, hiff⟩
      · exact iff_of_true haccept (hall [])
      · apply iff_of_false _ (hnone [])
        rcases hwrong with hnone' | ⟨hnone' | ⟨phase', hsome, _, d, rfl, _⟩, _⟩
        · rw [hnone']
          nofun
        · rw [hnone']
          nofun
        · rw [hsome]
          nofun
      · rw [haccept, hiff]
        exact iff_of_false nofun id
  | cons c chunks ih =>
      obtain ⟨m', hm', hrest⟩ := announce_cons_isSome hm
      obtain ⟨_, hd, hu⟩ := prepare_convert info (.handleStreamFormat c)
      rw [hknown] at hu
      rw [relayCalls_cons] at hlater ⊢
      rw [handleAll_later hlater hdone]
      have hnext := after_later codec hlater (relayCalls chunks final usage)
      have hout : Outcome s known (.handleStreamFormat c) (.body next live) m'
          (laterChunk codec c ((Call.handleStreamFormat c).prepare info).claudeConvertInfo) :=
        laterChunk_outcome codec (prepare_inStep h _) (prepare_group hg _) (hd.trans hdone) _ hu hm'
      rcases hout with ⟨haccept, hend, hall⟩ | ⟨hwrong, _, hnone⟩ |
        ⟨s', ⟨next', live', haccept, hstep, hgroup⟩, husage, hdone', hiff⟩
      · apply iff_of_true _ (hall _)
        rw [acceptAll_append_some haccept, handleAll_done hend]
        rfl
      · apply iff_of_false _ (hnone _)
        rcases hwrong with hnone' | ⟨hnone' | ⟨phase', hsome, hstuck⟩, hd'⟩
        · rw [acceptAll_append_none hnone']
          nofun
        · rw [acceptAll_append_none hnone']
          nofun
        · rw [acceptAll_append_some hsome]
          exact stuck_rejected chunks hstuck hd' hnext hrest
      · rw [acceptAll_append_some haccept, hiff]
        exact ih hstep hgroup hdone' husage hnext hrest

end runs

/-! ### The first chunk -/

/-- What is remembered when the first chunk is converted. -/
def freshInfo (usage : Option Usage) : ClaudeConvertInfo :=
  let info := ClaudeConvertInfo.new
  { info with usage := usage }

theorem freshInfo_inStep (usage : Option Usage) : InStep (freshInfo usage) 0 [] := ⟨rfl, rfl⟩

theorem freshInfo_group (usage : Option Usage) :
    GroupIs ⟨.unopened, 0, false⟩ (freshInfo usage) 0 :=
  ⟨fun _ => rfl, nofun, by show LastMessageType.noMessage ≠ .tools; decide, rfl⟩

/-- The tool call of a first chunk. -/
def firstTools (codec : ObjectCodec J) (delta : ChatCompletionsStreamResponseChoiceDelta)
    (info : ClaudeConvertInfo) : Converted J :=
  match delta.toolCalls with
  | [] => ([], info)
  | toolCall :: _ => firstTool codec toolCall info

theorem firstChoice_eq (usage : Option Usage) (choice : ChatCompletionsStreamResponseChoice)
    (info : ClaudeConvertInfo) :
    firstChoice codec usage choice info =
      let tools := firstTools codec choice.delta info
      let content := firstContent choice.delta tools.2
      let finish := firstFinish usage choice content.2
      (tools.1 ++ content.1 ++ finish.1, finish.2) := rfl

theorem firstTool_inStep (codec : ObjectCodec J) (toolCall : ToolCallResponse)
    (info : ClaudeConvertInfo) :
    acceptAll (.body 0 []) (firstTool codec toolCall info).1 = some (.body 1 (toolBlocks 0 1)) ∧
      InStep (firstTool codec toolCall info).2 1 (toolBlocks 0 1) := by
  constructor
  · unfold firstTool
    have hlive : toolBlocks 0 1 = [(0, .toolUse)] := rfl
    rw [acceptAll_cons, view_startTool, accept_start, if_pos rfl, hlive]
    exact accept_arguments (List.mem_singleton_self _) _
  · exact ⟨0, rfl, rfl, rfl⟩

/-- After the tool call of a first chunk. -/
theorem firstTools_inStep (codec : ObjectCodec J) {m : ℕ}
    {delta : ChatCompletionsStreamResponseChoiceDelta}
    (usage : Option Usage) (hm : announce 0 (namedOffsets delta.toolCalls.zipIdx) = some m) :
    ∃ next live, acceptAll (.body 0 []) (firstTools codec delta (freshInfo usage)).1 =
        some (.body next live) ∧
      InStep (firstTools codec delta (freshInfo usage)).2 next live ∧
      GroupIs (if delta.toolCalls = [] then ⟨.unopened, 0, false⟩
        else ⟨.opened, 1, decide (1 < namedCalls delta)⟩)
        (firstTools codec delta (freshInfo usage)).2 m := by
  unfold firstTools namedCalls
  have hcount := announce_eq hm
  cases htools : delta.toolCalls with
  | nil =>
      rw [htools] at hcount
      have hm0 : m = 0 := hcount
      rw [if_pos rfl, hm0]
      exact ⟨0, [], rfl, freshInfo_inStep usage, freshInfo_group usage⟩
  | cons toolCall rest =>
      have hpos := announce_pos (namedOffsets_ne_nil (by rw [htools]; simp)) hm
      obtain ⟨haccept, hstep⟩ := firstTool_inStep codec toolCall (freshInfo usage)
      rw [if_neg (by simp)]
      rw [htools] at hcount
      refine ⟨1, _, haccept, hstep, fun hs => ?_, fun hs => ?_, rfl, rfl⟩
      · have := of_decide_eq_false hs
        show m = 1
        omega
      · have := of_decide_eq_true hs
        show 1 < m
        omega

theorem firstTools_keeps (codec : ObjectCodec J)
    (delta : ChatCompletionsStreamResponseChoiceDelta)
    (info : ClaudeConvertInfo) (h : info.lastMessagesType = .noMessage) :
    (firstTools codec delta info).2.usage = info.usage ∧
      (firstTools codec delta info).2.done = info.done ∧
      ((firstTools codec delta info).2.lastMessagesType = .noMessage ∨
        (firstTools codec delta info).2.lastMessagesType = .tools) := by
  unfold firstTools
  cases delta.toolCalls with
  | nil => exact ⟨rfl, rfl, Or.inl h⟩
  | cons toolCall rest => exact ⟨rfl, rfl, Or.inr rfl⟩

theorem firstBlock_keeps (type : LastMessageType) (block delta : ClaudeMediaMessage J)
    (info : ClaudeConvertInfo) :
    (firstBlock type block delta info).2.usage = info.usage ∧
      (firstBlock type block delta info).2.done = info.done ∧
      (firstBlock type block delta info).2.lastMessagesType = type := by
  obtain ⟨hu, hd⟩ := advance_keeps (J := J) info
  unfold firstBlock
  split_ifs
  · exact ⟨hu, hd, rfl⟩
  · exact ⟨rfl, rfl, rfl⟩

/-- After the text or reasoning of a first chunk. -/
theorem firstContent_goesOn {s : ToolState} {info : ClaudeConvertInfo} {next : ℤ}
    {live : List (ℤ × BlockType)} {m : ℕ} (h : InStep info next live) (hg : GroupIs s info m)
    (hlast : info.lastMessagesType = .noMessage ∨ info.lastMessagesType = .tools)
    (delta : ChatCompletionsStreamResponseChoiceDelta) :
    GoesOn (if shows delta ∧ s.group = .opened then { s with group := .closed } else s) m
        (.body next live) (firstContent (J := J) delta info) ∧
      (firstContent (J := J) delta info).2.usage = info.usage ∧
      (firstContent (J := J) delta info).2.done = info.done := by
  have hother : ∀ t, t ≠ .toolUse → info.lastMessagesType ≠ shownType t := by
    intro t ht
    rcases hlast with hlast | hlast
    · rw [hlast]
      cases t <;> decide
    · rw [hlast]
      cases t with
      | text => decide
      | thinking => decide
      | toolUse => exact absurd rfl ht
  unfold firstContent
  by_cases hreasoning : delta.getReasoningContent = ""
  · rw [if_neg (not_not_intro hreasoning)]
    by_cases hcontent : delta.getContentString = ""
    · rw [if_neg (not_not_intro hcontent), if_neg]
      · exact ⟨⟨next, live, rfl, h, hg⟩, rfl, rfl⟩
      · rintro ⟨hshows, _⟩
        exact hshows.elim (absurd hreasoning) (absurd hcontent)
    · rw [if_pos hcontent]
      obtain ⟨hblock, hdelta⟩ := view_text (J := J) delta.getContentString
      obtain ⟨next', live', haccept, hstep⟩ :=
        firstBlock_inStep h (by decide) (hother .text (by decide)) hblock hdelta
      obtain ⟨hu, hd, htype⟩ := firstBlock_keeps .text (.textBlock "")
        (.textDelta delta.getContentString : ClaudeMediaMessage J) info
      have hgroup := groupIs_shown (firstBlock .text (.textBlock "")
        (.textDelta delta.getContentString : ClaudeMediaMessage J) info).2 h hg
        (by rw [htype]; decide)
      have hshows : shows delta := Or.inr hcontent
      exact ⟨⟨next', live', haccept, hstep, by simpa [hshows] using hgroup⟩, hu, hd⟩
  · rw [if_pos hreasoning]
    obtain ⟨hblock, hdelta⟩ := view_thinking (J := J) delta.getReasoningContent
    obtain ⟨next', live', haccept, hstep⟩ :=
      firstBlock_inStep h (by decide) (hother .thinking (by decide)) hblock hdelta
    obtain ⟨hu, hd, htype⟩ := firstBlock_keeps .thinking (.thinkingBlock "")
      (.thinkingDelta delta.getReasoningContent : ClaudeMediaMessage J) info
    have hgroup := groupIs_shown (firstBlock .thinking (.thinkingBlock "")
      (.thinkingDelta delta.getReasoningContent : ClaudeMediaMessage J) info).2 h hg
      (by rw [htype]; decide)
    have hshows : shows delta := Or.inl hreasoning
    exact ⟨⟨next', live', haccept, hstep, by simpa [hshows] using hgroup⟩, hu, hd⟩

/-- **The first choice**, before its finish reason is looked at. -/
theorem firstChoice_goesOn (codec : ObjectCodec J) {m : ℕ} (usage : Option Usage)
    (choice : ChatCompletionsStreamResponseChoice)
    (hm : announce 0 (namedOffsets choice.delta.toolCalls.zipIdx) = some m) :
    let tools := firstTools codec choice.delta (freshInfo usage)
    let content := firstContent choice.delta tools.2
    GoesOn (if choice.delta.toolCalls = [] then ⟨.unopened, 0, false⟩
        else ⟨if shows choice.delta then .closed else .opened, 1,
          decide (1 < namedCalls choice.delta)⟩) m
        (.body 0 []) (tools.1 ++ content.1, content.2) ∧
      content.2.usage = usage ∧ content.2.done = false := by
  intro tools content
  obtain ⟨next, live, haccept, hstep, hgroup⟩ := firstTools_inStep codec usage hm
  obtain ⟨hu, hd, hlast⟩ := firstTools_keeps codec choice.delta (freshInfo usage) rfl
  obtain ⟨⟨next', live', haccept', hstep', hgroup'⟩, hu', hd'⟩ :=
    firstContent_goesOn (J := J) hstep hgroup hlast choice.delta
  refine ⟨⟨next', live', ?_, hstep', ?_⟩, hu'.trans hu, hd'.trans hd⟩
  · rw [acceptAll_append_some haccept]
    exact haccept'
  · by_cases htools : choice.delta.toolCalls = []
    · simpa [htools] using hgroup'
    · by_cases hshows : shows choice.delta
      · simpa [htools, hshows] using hgroup'
      · simpa [htools, hshows] using hgroup'

/-- What the first chunk leads to. -/
inductive FirstOutcome (first : ChatCompletionsStreamResponse) (m : ℕ) (out : Converted J) : Prop
  | ends (hreason : (first.choices.head?.bind doneReason).isSome = true)
      (hdone : out.2.done = true)
      (haccept : acceptAll .initial out.1 = if first.usage.isSome then some .stopped else none)
  | goesOn (hreason : first.choices.head?.bind doneReason = none)
      (hon : GoesOn (.first first) m .initial out) (husage : out.2.usage = first.usage)
      (hdone : out.2.done = false)

theorem accept_messageStart (id model : String) (usage : Option ClaudeUsage)
    (events : List (ClaudeResponse J)) :
    acceptAll .initial (.messageStart id model usage :: events) = acceptAll (.body 0 []) events :=
  rfl

/-- **The first chunk.** -/
theorem firstChunk_outcome (codec : ObjectCodec J) (estimate : ℤ) {m : ℕ}
    (first : ChatCompletionsStreamResponse)
    (hm : announce 0 (namedOffsets (chunkTools first)) = some m) :
    FirstOutcome first m (firstChunk codec first estimate (freshInfo first.usage)) := by
  unfold firstChunk
  cases hchoices : first.choices with
  | nil =>
      rw [chunkTools_nil hchoices] at hm
      have hm0 : m = 0 := (Option.some.inj hm).symm
      rw [hm0]
      refine .goesOn (by rw [hchoices]; rfl) ⟨0, [], rfl, freshInfo_inStep _, ?_⟩ rfl rfl
      unfold ToolState.first
      rw [hchoices]
      exact freshInfo_group first.usage
  | cons choice rest =>
      rw [chunkTools_cons hchoices] at hm
      obtain ⟨hon, hu, hd⟩ := firstChoice_goesOn codec first.usage choice hm
      dsimp only
      rw [firstChoice_eq]
      unfold firstFinish
      have hhead : first.choices.head?.bind doneReason = doneReason choice := by
        rw [hchoices]
        rfl
      cases hreason : doneReason choice with
      | none =>
          refine .goesOn (hhead.trans hreason) ?_ hu hd
          obtain ⟨next, live, haccept, hstep, hgroup⟩ := hon
          refine ⟨next, live, ?_, hstep, ?_⟩
          · rw [accept_messageStart]
            simpa using haccept
          · unfold ToolState.first
            rw [hchoices]
            exact hgroup
      | some reason =>
          refine .ends (by rw [hhead, hreason]; rfl) rfl ?_
          obtain ⟨next, live, haccept, hstep, _⟩ := hon
          dsimp only at haccept ⊢
          rw [accept_messageStart, ← List.append_assoc, List.append_assoc _ (stopOpenBlocks _),
            acceptAll_append_some haccept, hu, Option.or_self]
          cases husage : first.usage with
          | none =>
              rw [husage] at hstep
              exact close_without_usage hstep _
          | some u =>
              rw [husage] at hstep
              exact close_inStep hstep u _

/-- Nothing but `message_start` is in order at the beginning. -/
theorem accept_initial {next : ℤ} {live : List (ℤ × BlockType)} {events : List (ClaudeResponse J)}
    (h : acceptAll (.body next live) events ≠ none) :
    acceptAll .initial events ≠ some .stopped := by
  cases events with
  | nil => nofun
  | cons r events =>
      rw [acceptAll_cons] at h ⊢
      cases hview : view r with
      | messageStart =>
          rw [hview] at h
          exact absurd rfl h
      | _ => nofun

/-! ### The stream of the relay -/

/-- What is remembered after the first chunk. -/
def afterFirst (codec : ObjectCodec J) (estimate : ℤ) (first : ChatCompletionsStreamResponse) :
    RelayInfo :=
  ⟨1, estimate, (firstChunk codec first estimate (freshInfo first.usage)).2⟩

theorem relayStream_cons (estimate : ℤ) (first : ChatCompletionsStreamResponse)
    (rest : List ChatCompletionsStreamResponse) (final : ChatCompletionsStreamResponse)
    (usage : Usage) :
    relayStream codec estimate (first :: rest) final usage =
      (firstChunk codec first estimate (freshInfo first.usage)).1 ++
        handleAll codec (afterFirst codec estimate first) (relayCalls rest final usage) := by
  have hfresh : freshInfo (first.usage.or none) = freshInfo first.usage := by
    rw [Option.or_none]
  unfold afterFirst
  rw [← hfresh]
  rfl

/-- A relay that ends with its second call starts the message anew. -/
theorem final_restarts {info : RelayInfo} {final : ChatCompletionsStreamResponse} {usage : Usage}
    {next : ℤ} {live : List (ℤ × BlockType)} (hcount : info.sendResponseCount = 1)
    (hdone : info.claudeConvertInfo.done = false) :
    acceptAll (.body next live) (handleAll codec info (relayCalls [] final usage)) = none := by
  have hstream : streamResponseOpenAI2Claude codec final
      ((Call.handleFinalResponse final usage).prepare info) =
      firstChunk codec final info.estimatePromptTokens
        ((Call.handleFinalResponse final usage).prepare info).claudeConvertInfo := by
    unfold streamResponseOpenAI2Claude Call.prepare
    dsimp only
    rw [hdone, if_neg Bool.false_ne_true, if_pos hcount]
  have hlast : relayCalls [] final usage = [.handleFinalResponse final usage] := rfl
  rw [hlast, handleAll_cons]
  apply acceptAll_append_none
  unfold handle Call.response
  dsimp only
  rw [hstream]
  unfold firstChunk
  cases final.choices <;> rfl

/-- **The order of the events.** For chunks whose tool calls are in order, the relay emits a
well-formed Claude stream exactly if the chunks are convertible. -/
theorem relay_wellFormed_iff (codec : ObjectCodec J) (estimate : ℤ)
    (chunks : List ChatCompletionsStreamResponse) (final : ChatCompletionsStreamResponse)
    (usage : Usage) (h : ToolsInOrder (chunks ++ [final])) :
    WellFormed (relayStream codec estimate chunks final usage) ↔
      Convertible chunks final usage := by
  unfold WellFormed
  cases chunks with
  | nil =>
      apply iff_of_false _ id
      obtain ⟨m, hm, _⟩ := announce_cons_isSome h
      have hlast : relayStream codec estimate [] final usage =
          (laterChunk codec final (freshInfo (some usage))).1 := List.append_nil _
      have hout : Outcome ⟨.unopened, 0, false⟩ false (.handleFinalResponse final usage)
          (.body 0 []) m (laterChunk codec final (freshInfo (some usage))) :=
        laterChunk_outcome codec (freshInfo_inStep _) (freshInfo_group _) rfl _ rfl hm
      rw [hlast]
      apply accept_initial
      rcases hout with ⟨haccept, _, _⟩ | ⟨_, ⟨choice, _, hunfit⟩, _⟩ |
        ⟨s', ⟨next', live', haccept, _⟩, _, _, _⟩
      · rw [haccept]
        nofun
      · exact absurd (Or.inr ⟨by decide, nofun⟩) hunfit
      · rw [haccept]
        nofun
  | cons first rest =>
      obtain ⟨m, hm, hrest⟩ := announce_cons_isSome h
      rw [relayStream_cons]
      unfold Convertible
      rcases firstChunk_outcome codec estimate first hm with
        ⟨hreason, hdone, haccept⟩ | ⟨hreason, ⟨next, live, haccept, hstep, hgroup⟩, husage, hdone⟩
      · rw [handleAll_done hdone, List.append_nil, haccept]
        obtain ⟨reason, hsome⟩ := Option.isSome_iff_exists.mp hreason
        dsimp only
        rw [hsome]
        cases first.usage with
        | none => exact iff_of_false nofun nofun
        | some u => exact iff_of_true rfl rfl
      · rw [acceptAll_append_some haccept]
        dsimp only
        rw [hreason]
        cases rest with
        | nil =>
            apply iff_of_false _ fun hne => hne.1 rfl
            rw [final_restarts rfl hdone]
            nofun
        | cons second rest =>
            have hlater : Later (afterFirst codec estimate first)
                (relayCalls (second :: rest) final usage) :=
              Or.inr ⟨Nat.le_refl 1, second, relayCalls rest final usage, rfl⟩
            rw [orderly_iff (second :: rest) hstep hgroup hdone (congrArg Option.isSome husage)
              hlater hrest]
            exact (and_iff_right (List.cons_ne_nil _ _)).symm

/-! ### Examples -/

/-- The arguments of tool calls as their texts. -/
def textCodec : ObjectCodec String where
  unmarshal s := if s = "null" then some none else some (some s)
  emptyObject := "\x7b\x7d"
  argumentsObject s := s

def deltaChunk (delta : ChatCompletionsStreamResponseChoiceDelta) (finishReason : Option String)
    (usage : Option Usage) : ChatCompletionsStreamResponse :=
  ⟨"chatcmpl-1", "gpt", [⟨delta, finishReason⟩], usage⟩

def textChunk (s : String) : ChatCompletionsStreamResponse :=
  deltaChunk ⟨some s, none, none, "", []⟩ none none

def toolChunk (i : ℤ) (id name arguments : String) : ChatCompletionsStreamResponse :=
  deltaChunk ⟨none, none, none, "", [⟨some i, id, name, arguments⟩]⟩ none none

def finishChunk (reason : String) : ChatCompletionsStreamResponse :=
  deltaChunk .empty (some reason) none

def usageChunk : ChatCompletionsStreamResponse := ⟨"chatcmpl-1", "gpt", [], some .empty⟩

/-- Text and two tool calls, a finish reason, and a chunk with the usage. -/
theorem relay_wellFormed_tools :
    ToolsInOrder ([textChunk "hi", toolChunk 0 "call_1" "search" "", toolChunk 0 "" "" "q",
        toolChunk 1 "call_2" "search" "r", finishChunk "tool_calls"] ++ [usageChunk]) ∧
      WellFormed (relayStream textCodec 7
        [textChunk "hi", toolChunk 0 "call_1" "search" "", toolChunk 0 "" "" "q",
          toolChunk 1 "call_2" "search" "r", finishChunk "tool_calls"] usageChunk .empty) := by
  have h : ToolsInOrder ([textChunk "hi", toolChunk 0 "call_1" "search" "", toolChunk 0 "" "" "q",
      toolChunk 1 "call_2" "search" "r", finishChunk "tool_calls"] ++ [usageChunk]) := by
    unfold ToolsInOrder
    decide
  refine ⟨h, (relay_wellFormed_iff textCodec 7 _ usageChunk .empty h).mpr ⟨by simp, ?_⟩⟩
  refine ⟨Or.inr ⟨by decide, nofun⟩, Or.inr ⟨by decide, nofun⟩, Or.inr ⟨by decide, nofun⟩, ?_⟩
  exact Or.inl rfl

/-- A stream of one text chunk and its finish: the second call starts the message anew. -/
theorem relay_illFormed_short :
    ToolsInOrder ([textChunk "hi"] ++ [finishChunk "stop"]) ∧
      ¬ WellFormed (relayStream textCodec 7 [textChunk "hi"] (finishChunk "stop") .empty) := by
  unfold ToolsInOrder
  decide

end MaxApi.Convert
