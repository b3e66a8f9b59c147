import MaxApi.Dto.Claude
import Mathlib.Data.List.Basic

/-! # Conversions: the events of a Claude stream

The order that the events of a Claude stream keep, as a machine that reads them: one
`message_start`; content blocks with consecutive indices, each started once, continued by deltas of
its own type while it is open, and stopped once; one `message_delta` when no block is open, and one
`message_stop`. -/

namespace MaxApi.Convert

open Dto

variable {J : Type}

/-! ### Events -/

inductive BlockType where
  | text
  | thinking
  | toolUse
  deriving DecidableEq

/-- What the order of the events depends on. -/
inductive StreamEvent where
  | messageStart
  | blockStart (index : ℤ) (type : BlockType)
  | blockDelta (index : ℤ) (type : BlockType)
  | blockStop (index : ℤ)
  | messageDelta
  | messageStop
  | unknown
  deriving DecidableEq

def blockType (type : String) : Option BlockType :=
  if type = "text" then some .text
  else if type = "thinking" then some .thinking
  else if type = "tool_use" then some .toolUse
  else none

/-- The type of the blocks that a delta continues. -/
def deltaType (type : String) : Option BlockType :=
  if type = "text_delta" then some .text
  else if type = "thinking_delta" then some .thinking
  else if type = "input_json_delta" then some .toolUse
  else none

/-- An event of a block, if its index and its type are known. -/
def blockEvent (event : ℤ → BlockType → StreamEvent) (index : Option ℤ) (type : Option BlockType) :
    StreamEvent :=
  match index, type with
  | some i, some t => event i t
  | _, _ => .unknown

def view (r : ClaudeResponse J) : StreamEvent :=
  if r.type = "message_start" then .messageStart
  else if r.type = "content_block_start" then
    blockEvent .blockStart r.index (r.contentBlock.bind fun b => blockType b.type)
  else if r.type = "content_block_delta" then
    blockEvent .blockDelta r.index (r.delta.bind fun d => deltaType d.type)
  else if r.type = "content_block_stop" then
    match r.index with
    | none => .unknown
    | some i => .blockStop i
  else if r.type = "message_delta" then .messageDelta
  else if r.type = "message_stop" then .messageStop
  else .unknown

/-! ### The machine -/

/-- How much of a stream has been read; in its body, the next index and the open blocks. -/
inductive Phase where
  | initial
  | body (next : ℤ) (live : List (ℤ × BlockType))
  | closing
  | stopped
  deriving DecidableEq

/-- The phase after an event, if the event is in order. -/
def accept : Phase → StreamEvent → Option Phase
  | .initial, .messageStart => some (.body 0 [])
  | .body next live, .blockStart i t =>
      if i = next then some (.body (next + 1) (live ++ [(i, t)])) else none
  | .body next live, .blockDelta i t => if (i, t) ∈ live then some (.body next live) else none
  | .body next live, .blockStop i =>
      if ∃ b ∈ live, b.1 = i then some (.body next (live.filter fun b => b.1 ≠ i)) else none
  | .body _ live, .messageDelta => if live = [] then some .closing else none
  | .closing, .messageStop => some .stopped
  | _, _ => none

theorem accept_start (next : ℤ) (live : List (ℤ × BlockType)) (i : ℤ) (t : BlockType) :
    accept (.body next live) (.blockStart i t) =
      if i = next then some (.body (next + 1) (live ++ [(i, t)])) else none := rfl

theorem accept_delta (next : ℤ) (live : List (ℤ × BlockType)) (i : ℤ) (t : BlockType) :
    accept (.body next live) (.blockDelta i t) =
      if (i, t) ∈ live then some (.body next live) else none := rfl

theorem accept_stop (next : ℤ) (live : List (ℤ × BlockType)) (i : ℤ) :
    accept (.body next live) (.blockStop i) =
      if ∃ b ∈ live, b.1 = i then some (.body next (live.filter fun b => b.1 ≠ i)) else none := rfl

def acceptAll : Phase → List (ClaudeResponse J) → Option Phase
  | phase, [] => some phase
  | phase, r :: events => (accept phase (view r)).bind fun phase => acceptAll phase events

/-- A well-formed stream is read from its beginning to its end. -/
def WellFormed (events : List (ClaudeResponse J)) : Prop :=
  acceptAll .initial events = some .stopped

instance (events : List (ClaudeResponse J)) : Decidable (WellFormed events) :=
  inferInstanceAs (Decidable (_ = _))

@[simp] theorem acceptAll_nil (phase : Phase) :
    acceptAll phase ([] : List (ClaudeResponse J)) = some phase := rfl

theorem acceptAll_cons (phase : Phase) (r : ClaudeResponse J) (events : List (ClaudeResponse J)) :
    acceptAll phase (r :: events) =
      (accept phase (view r)).bind fun phase => acceptAll phase events := rfl

theorem acceptAll_append (phase : Phase) (as bs : List (ClaudeResponse J)) :
    acceptAll phase (as ++ bs) = (acceptAll phase as).bind fun phase => acceptAll phase bs := by
  induction as generalizing phase with
  | nil => rfl
  | cons r as ih =>
      rw [List.cons_append, acceptAll_cons, acceptAll_cons]
      cases accept phase (view r) with
      | none => rfl
      | some next => exact ih next

/-- What follows an accepted part. -/
theorem acceptAll_append_some {phase mid : Phase} {as : List (ClaudeResponse J)}
    (h : acceptAll phase as = some mid) (bs : List (ClaudeResponse J)) :
    acceptAll phase (as ++ bs) = acceptAll mid bs := by
  rw [acceptAll_append, h]
  rfl

/-- A part that is out of order is not made good by what follows. -/
theorem acceptAll_append_none {phase : Phase} {as : List (ClaudeResponse J)}
    (h : acceptAll phase as = none) (bs : List (ClaudeResponse J)) :
    acceptAll phase (as ++ bs) = none := by
  rw [acceptAll_append, h]
  rfl

/-! ### The events of the converters -/

@[simp] theorem view_messageStart (id model : String) (usage : Option ClaudeUsage) :
    view (.messageStart id model usage : ClaudeResponse J) = .messageStart := rfl

@[simp] theorem view_startText (i : ℤ) (s : String) :
    view (.contentBlockStart i (.textBlock s) : ClaudeResponse J) = .blockStart i .text := rfl

@[simp] theorem view_startThinking (i : ℤ) (s : String) :
    view (.contentBlockStart i (.thinkingBlock s) : ClaudeResponse J) = .blockStart i .thinking :=
  rfl

@[simp] theorem view_startTool (i : ℤ) (id name : String) (input : Option J) :
    view (.contentBlockStart i (.toolUseBlock id name input)) = .blockStart i .toolUse := rfl

@[simp] theorem view_textDelta (i : ℤ) (s : String) :
    view (.contentBlockDelta i (.textDelta s) : ClaudeResponse J) = .blockDelta i .text := rfl

@[simp] theorem view_thinkingDelta (i : ℤ) (s : String) :
    view (.contentBlockDelta i (.thinkingDelta s) : ClaudeResponse J) = .blockDelta i .thinking :=
  rfl

@[simp] theorem view_inputJsonDelta (i : ℤ) (s : String) :
    view (.contentBlockDelta i (.inputJsonDelta s) : ClaudeResponse J) = .blockDelta i .toolUse :=
  rfl

@[simp] theorem view_stop (i : ℤ) :
    view (.contentBlockStop i : ClaudeResponse J) = .blockStop i := rfl

@[simp] theorem view_messageDelta (usage : Option ClaudeUsage) (stopReason : Option String) :
    view (.messageDelta usage stopReason : ClaudeResponse J) = .messageDelta := rfl

@[simp] theorem view_messageStop : view (.messageStop : ClaudeResponse J) = .messageStop := rfl

/-! ### Tool blocks that are open together -/

/-- Tool blocks with `n` consecutive indices. -/
def toolBlocks (base : ℤ) (n : ℕ) : List (ℤ × BlockType) :=
  (List.range n).map fun k : ℕ => (base + k, .toolUse)

theorem mem_toolBlocks {base i : ℤ} {n : ℕ} {t : BlockType} :
    (i, t) ∈ toolBlocks base n ↔ base ≤ i ∧ i < base + n ∧ t = .toolUse := by
  unfold toolBlocks
  simp only [List.mem_map, List.mem_range, Prod.mk.injEq]
  constructor
  · rintro ⟨k, hk, rfl, rfl⟩
    exact ⟨by omega, by omega, rfl⟩
  · rintro ⟨hle, hlt, rfl⟩
    exact ⟨(i - base).toNat, by omega, by omega, rfl⟩

theorem toolBlocks_succ (base : ℤ) (n : ℕ) :
    toolBlocks base (n + 1) = toolBlocks base n ++ [(base + n, .toolUse)] := by
  unfold toolBlocks
  rw [List.range_succ, List.map_append, List.map_singleton]

theorem toolBlocks_cons (base : ℤ) (n : ℕ) :
    toolBlocks base (n + 1) = (base, .toolUse) :: toolBlocks (base + 1) n := by
  unfold toolBlocks
  rw [List.range_succ_eq_map, List.map_cons, List.map_map]
  congr 1
  · simp
  · refine List.map_congr_left fun k _ => ?_
    simp only [Function.comp_apply, Prod.mk.injEq, and_true]
    omega

/-- The stops of the blocks with `n` consecutive indices. -/
def toolStops (base : ℤ) (n : ℕ) : List (ClaudeResponse J) :=
  (List.range n).map fun k : ℕ => .contentBlockStop (base + k)

theorem toolStops_cons (base : ℤ) (n : ℕ) :
    toolStops (J := J) base (n + 1) = .contentBlockStop base :: toolStops (base + 1) n := by
  unfold toolStops
  rw [List.range_succ_eq_map, List.map_cons, List.map_map]
  congr 1
  · simp
  · refine List.map_congr_left fun k _ => ?_
    simp only [Function.comp_apply]
    congr 1
    omega

theorem filter_toolBlocks (base : ℤ) (n : ℕ) :
    (toolBlocks base (n + 1)).filter (fun b => b.1 ≠ base) = toolBlocks (base + 1) n := by
  rw [toolBlocks_cons, List.filter_cons_of_neg (by simp), List.filter_eq_self]
  rintro ⟨i, t⟩ hb
  have := (mem_toolBlocks.mp hb).1
  simp only [decide_eq_true_eq]
  omega

theorem accept_stopTool (next base : ℤ) (n : ℕ) :
    accept (.body next (toolBlocks base (n + 1))) (.blockStop base) =
      some (.body next (toolBlocks (base + 1) n)) := by
  rw [accept_stop, if_pos ⟨(base, .toolUse), mem_toolBlocks.mpr ⟨by omega, by omega, rfl⟩, rfl⟩,
    filter_toolBlocks]

/-- Stopping all of them. -/
theorem acceptAll_toolStops (next base : ℤ) (n : ℕ) :
    acceptAll (.body next (toolBlocks base n)) (toolStops (J := J) base n) =
      some (.body next []) := by
  induction n generalizing base with
  | zero => rfl
  | succ n ih =>
      rw [toolStops_cons, acceptAll_cons, view_stop, accept_stopTool]
      exact ih (base + 1)

/-- Stopping more than there are is out of order. -/
theorem acceptAll_toolStops_none (next base : ℤ) {n d : ℕ} (h : d < n) :
    acceptAll (.body next (toolBlocks base d)) (toolStops (J := J) base n) = none := by
  induction n generalizing base d with
  | zero => omega
  | succ n ih =>
      rw [toolStops_cons, acceptAll_cons, view_stop]
      cases d with
      | zero => rfl
      | succ d =>
          rw [accept_stopTool]
          exact ih (base + 1) (by omega)

end MaxApi.Convert
