import MaxApi.Convert.ClaudeToOpenAI
import Mathlib.Algebra.Ring.Nat

/-! # Conversions: the two conversions from Claude to OpenAI

A complete Claude message of text, thinking and tool blocks, and the event streams that transmit
it.  The chunks of such a stream are merged and compared with the conversion of the message.  The
two agree exactly for the messages of `stream_agrees_iff`: a signature becomes a line break of the
reasoning in the stream only, the conversion of a message keeps one thinking block where the stream
concatenates them, and a tool call of the stream has the index of its content block. -/

namespace MaxApi.Convert

open Dto

variable {J : Type}

/-! ### Messages and their streams -/

/-- A content block of a complete message. -/
inductive Block (J : Type) where
  | text (text : String)
  | thinking (thinking : String)
  | toolUse (id name : String) (input : Option J)

namespace Block

def media : Block J → ClaudeMediaMessage J
  | .text s => .textBlock s
  | .thinking s => .thinkingBlock s
  | .toolUse id name input => .toolUseBlock id name input

def isTool : Block J → Bool
  | .toolUse .. => true
  | _ => false

/-- The part of a block in the text of the message. -/
def shownText : Block J → String
  | .text s => s
  | _ => ""

/-- The part of a block in the thinking of the message. -/
def thought : Block J → String
  | .thinking s => s
  | _ => ""

end Block

structure ClaudeMessage (J : Type) where
  id : String
  model : String
  blocks : List (Block J)
  stopReason : String

/-- The response that carries the whole message. -/
def ClaudeMessage.response (message : ClaudeMessage J) : ClaudeResponse J :=
  let empty : ClaudeResponse J := .ofType "message"
  { empty with
    id := message.id
    model := message.model
    role := "assistant"
    content := message.blocks.map Block.media
    stopReason := message.stopReason }

/-- How a block is transmitted: the text it starts with, and its deltas.  The delta `none` of a
thinking block is a signature. -/
inductive BlockStream where
  | text (first : String) (deltas : List String)
  | thinking (deltas : List (Option String))
  | toolUse (id name : String) (deltas : List String)

/-- The block in the event that starts it. -/
def BlockStream.startBlock (codec : Codec J) : BlockStream → ClaudeMediaMessage J
  | .text first _ => (Block.text first).media
  | .thinking _ => (Block.thinking "").media
  | .toolUse id name _ => (Block.toolUse id name (some codec.emptyObject)).media

def thoughtDelta : Option String → ClaudeMediaMessage J
  | none => .ofType "signature_delta"
  | some s => .thinkingDelta s

def BlockStream.deltas : BlockStream → List (ClaudeMediaMessage J)
  | .text _ deltas => deltas.map .textDelta
  | .thinking deltas => deltas.map thoughtDelta
  | .toolUse _ _ deltas => deltas.map .inputJsonDelta

/-- The events of the block with the index `i`. -/
def blockEvents (codec : Codec J) (i : ℕ) (part : BlockStream) : List (ClaudeResponse J) :=
  .contentBlockStart i (part.startBlock codec) ::
    (part.deltas.map (.contentBlockDelta (i : ℤ)) ++ [.contentBlockStop i])

/-- The events of the blocks from the index `i` on. -/
def blocksEvents (codec : Codec J) : ℕ → List BlockStream → List (ClaudeResponse J)
  | _, [] => []
  | i, part :: parts => blockEvents codec i part ++ blocksEvents codec (i + 1) parts

/-- The events of a message without those that may come in between; `us` and `ud` are the usages
that its start and its delta report. -/
def messageEvents (codec : Codec J) (message : ClaudeMessage J) (parts : List BlockStream)
    (us ud : Option ClaudeUsage) : List (ClaudeResponse J) :=
  .messageStart message.id message.model us :: (blocksEvents codec 0 parts ++
    [.messageDelta ud (some message.stopReason), .messageStop])

/-- Events that may come anywhere: pings, and message deltas that report usage only. -/
def incidental (r : ClaudeResponse J) : Bool :=
  r.type == "ping" || (r.type == "message_delta" && (r.delta.bind (·.stopReason)).isNone)

/-- The raw text is empty or decodes; an absent input counts as `{}`. -/
def CarriesInput (codec : Codec J) (raw : String) (input : Option J) : Prop :=
  (raw = "" ∧ input.getD codec.emptyObject = codec.emptyObject) ∨
    codec.decode raw = some (input.getD codec.emptyObject)

/-- The stream of a block transmits the block. -/
def Carries (codec : Codec J) : BlockStream → Block J → Prop
  | .text first deltas, .text text => first ++ String.join deltas = text
  | .thinking deltas, .thinking thinking => String.join (deltas.map (·.getD "")) = thinking
  | .toolUse id name deltas, .toolUse id' name' input =>
      id = id' ∧ name = name' ∧ CarriesInput codec (String.join deltas) input
  | _, _ => False

/-- A valid event stream of the message. -/
def Transmits (codec : Codec J) (message : ClaudeMessage J) (parts : List BlockStream)
    (events : List (ClaudeResponse J)) : Prop :=
  List.Forall₂ (Carries codec) parts message.blocks ∧
    ∃ us ud, events.filter (fun r => !incidental r) = messageEvents codec message parts us ud

/-! ### Agreement -/

/-- The value of the arguments of a tool call. -/
def argsValue (codec : Codec J) (arguments : String) : Option J :=
  if arguments = "" ∨ arguments = "null" then some codec.emptyObject else codec.decode arguments

def mergedCall (codec : Codec J) (t : MergedTool) : String × String × Option J :=
  (t.id, t.name, argsValue codec t.arguments)

def responseCall (codec : Codec J) (t : ToolCallResponse) : String × String × Option J :=
  (t.id, t.function.name, argsValue codec t.function.arguments)

/-- What the chunks merge to is what the response says. -/
structure Agrees (codec : Codec J) (m : Merged) (choice : OpenAITextResponseChoice) : Prop where
  content : m.content = choice.message.content
  reasoning : m.reasoning = choice.message.getReasoningContent
  calls : m.tools.map (mergedCall codec) = choice.message.toolCalls.map (responseCall codec)
  indices : m.tools.map (·.index) = (List.range m.tools.length).map Int.ofNat
  finishReason : m.finishReason = some choice.finishReason

/-- No signature is transmitted. -/
def Unsigned (parts : List BlockStream) : Prop :=
  ∀ deltas, .thinking deltas ∈ parts → none ∉ deltas

/-- All thinking of the message is in one block, which is its first block or its last thinking
block. -/
def OneThinking (blocks : List (Block J)) : Prop :=
  (∀ t, .thinking t ∈ blocks → t = "") ∨
    ∃ pre t post, blocks = pre ++ .thinking t :: post ∧
      (∀ u, .thinking u ∈ pre ++ post → u = "") ∧ (pre = [] ∨ ∀ u, .thinking u ∉ post)

/-- No text and no thinking comes before a tool. -/
def ToolsFirst (blocks : List (Block J)) : Prop :=
  blocks.Pairwise fun b c => c.isTool → b.isTool

/-! ### Streams that convert -/

/-- The events convert, and merging their chunks leads from `m` to `m'`. -/
def Converts (events : List (ClaudeResponse J)) (m m' : Merged) : Prop :=
  ∃ chunks, streamChunks events = .ok chunks ∧ mergeChunks m chunks = m'

theorem converts_nil (m : Merged) : Converts ([] : List (ClaudeResponse J)) m m := ⟨[], rfl, rfl⟩

theorem converts_cons {r : ClaudeResponse J} {chunk : Option ChatCompletionsStreamResponse}
    {events : List (ClaudeResponse J)} {m m' : Merged}
    (hr : streamResponseClaude2OpenAI r = .ok chunk)
    (h : Converts events (mergeChunks m chunk.toList) m') : Converts (r :: events) m m' := by
  obtain ⟨chunks, hc, hm⟩ := h
  refine ⟨chunk.toList ++ chunks, ?_, ?_⟩
  · unfold streamChunks
    rw [hr, hc]
    rfl
  · rw [mergeChunks_append, hm]

theorem converts_cons_inv {r : ClaudeResponse J} {events : List (ClaudeResponse J)}
    {m m' : Merged} (h : Converts (r :: events) m m') :
    ∃ chunk, streamResponseClaude2OpenAI r = .ok chunk ∧
      Converts events (mergeChunks m chunk.toList) m' := by
  obtain ⟨chunks, hc, hm⟩ := h
  unfold streamChunks at hc
  cases hr : streamResponseClaude2OpenAI r with
  | error e =>
      rw [hr] at hc
      cases hc
  | ok chunk =>
      rw [hr] at hc
      cases hrest : streamChunks events with
      | error e =>
          rw [hrest] at hc
          cases hc
      | ok rest =>
          rw [hrest] at hc
          have hsplit : chunk.toList ++ rest = chunks := by
            injection hc
          rw [← hsplit, mergeChunks_append] at hm
          exact ⟨chunk, rfl, rest, hrest, hm⟩

theorem converts_append {as bs : List (ClaudeResponse J)} {m m₁ m' : Merged}
    (ha : Converts as m m₁) (hb : Converts bs m₁ m') : Converts (as ++ bs) m m' := by
  induction as generalizing m with
  | nil =>
      obtain ⟨chunks, hc, hm⟩ := ha
      cases hc
      rw [← hm] at hb
      exact hb
  | cons r as ih =>
      obtain ⟨chunk, hr, hrest⟩ := converts_cons_inv ha
      exact converts_cons hr (ih hrest)

/-- A delta that shows nothing. -/
theorem mergeChunk_empty (m : Merged) (id model : String) :
    mergeChunk m (chunkOf id model .empty none) = m := by
  unfold mergeChunk chunkOf mergeChoice
  simp [ChatCompletionsStreamResponseChoiceDelta.empty,
    ChatCompletionsStreamResponseChoiceDelta.getContentString,
    ChatCompletionsStreamResponseChoiceDelta.getReasoningContent, mergeTools]

/-- An incidental event changes nothing. -/
theorem incidental_quiet {r : ClaudeResponse J} (h : incidental r = true) :
    ∃ chunk, streamResponseClaude2OpenAI r = .ok chunk ∧
      ∀ m, mergeChunks m chunk.toList = m := by
  unfold incidental at h
  rw [Bool.or_eq_true, Bool.and_eq_true, beq_iff_eq, beq_iff_eq] at h
  unfold streamResponseClaude2OpenAI
  rcases h with hping | ⟨hdelta, hreason⟩
  · refine ⟨none, ?_, fun m => rfl⟩
    simp [hping]
  · rw [Option.isNone_iff_eq_none] at hreason
    refine ⟨some (chunkOf "" r.model .empty none), ?_, fun m => mergeChunk_empty m "" r.model⟩
    simp [hdelta, hreason]

/-- Incidental events may be left out. -/
theorem converts_filter {events : List (ClaudeResponse J)} {m m' : Merged}
    (h : Converts (events.filter fun r => !incidental r) m m') : Converts events m m' := by
  induction events generalizing m with
  | nil => exact h
  | cons r events ih =>
      cases hi : incidental r with
      | true =>
          rw [List.filter_cons_of_neg (by simp [hi])] at h
          obtain ⟨chunk, hr, hquiet⟩ := incidental_quiet hi
          apply converts_cons hr
          rw [hquiet m]
          exact ih h
      | false =>
          rw [List.filter_cons_of_pos (by simp [hi])] at h
          obtain ⟨chunk, hr, hrest⟩ := converts_cons_inv h
          exact converts_cons hr (ih hrest)

/-! ### The chunks of one event -/

/-- The chunk with a text, a reasoning and the tool calls. -/
def shownChunk (content reasoning : Option String) (tools : List ToolCallResponse) :
    ChatCompletionsStreamResponse :=
  chunkOf "" "" ⟨content, reasoning, none, "", tools⟩ none

theorem mergeChunk_shown (m : Merged) (content reasoning : Option String) :
    mergeChunk m (shownChunk content reasoning []) =
      { m with
        content := m.content ++ content.getD ""
        reasoning := m.reasoning ++ reasoning.getD "" } := by
  unfold mergeChunk shownChunk chunkOf mergeChoice
  cases reasoning <;> simp [ChatCompletionsStreamResponseChoiceDelta.getContentString,
    ChatCompletionsStreamResponseChoiceDelta.getReasoningContent, mergeTools]

theorem mergeChunk_call (m : Merged) (i : ℤ) (id name arguments : String) :
    mergeChunk m (shownChunk none none [⟨some i, id, name, arguments⟩]) =
      { m with tools := mergeTool m.tools i ⟨some i, id, name, arguments⟩ } := by
  unfold mergeChunk shownChunk chunkOf mergeChoice
  simp [ChatCompletionsStreamResponseChoiceDelta.getContentString,
    ChatCompletionsStreamResponseChoiceDelta.getReasoningContent, mergeTools]

section chunks

attribute [local simp] streamResponseClaude2OpenAI

theorem stream_startText (i : ℕ) (s : String) :
    streamResponseClaude2OpenAI (.contentBlockStart i (Block.text s : Block J).media) =
      .ok (some (shownChunk (some s) none [])) := by
  simp [ClaudeResponse.contentBlockStart, Block.media,
    ClaudeMediaMessage.textBlock, withTools, shownChunk, ClaudeResponse.ofType,
    ClaudeMediaMessage.ofType, ChatCompletionsStreamResponseChoiceDelta.empty]

theorem stream_startThinking (i : ℕ) (s : String) :
    streamResponseClaude2OpenAI (.contentBlockStart i (Block.thinking s : Block J).media) =
      .ok (some (shownChunk none none [])) := by
  simp [ClaudeResponse.contentBlockStart, Block.media,
    ClaudeMediaMessage.thinkingBlock, withTools, shownChunk, ClaudeResponse.ofType,
    ClaudeMediaMessage.ofType, ChatCompletionsStreamResponseChoiceDelta.empty]

theorem stream_startTool (i : ℕ) (id name : String) (input : Option J) :
    streamResponseClaude2OpenAI (.contentBlockStart i (Block.toolUse id name input).media) =
      .ok (some (shownChunk none none [⟨some (i : ℤ), id, name, ""⟩])) := by
  simp [ClaudeResponse.contentBlockStart, Block.media,
    ClaudeMediaMessage.toolUseBlock, withTools, shownChunk, ClaudeResponse.ofType,
    ClaudeMediaMessage.ofType, ChatCompletionsStreamResponseChoiceDelta.empty]

theorem stream_textDelta (i : ℕ) (s : String) :
    streamResponseClaude2OpenAI (.contentBlockDelta i (.textDelta s) : ClaudeResponse J) =
      .ok (some (shownChunk (some s) none [])) := by
  simp [ClaudeResponse.contentBlockDelta,
    ClaudeMediaMessage.textDelta, blockDelta, withTools, shownChunk, ClaudeResponse.ofType,
    ClaudeMediaMessage.ofType, Except.map, ChatCompletionsStreamResponseChoiceDelta.empty]

theorem stream_thoughtDelta (i : ℕ) (s : Option String) :
    streamResponseClaude2OpenAI (.contentBlockDelta i (thoughtDelta s) : ClaudeResponse J) =
      .ok (some (shownChunk none (some (s.getD "\n")) [])) := by
  cases s <;>
    simp [ClaudeResponse.contentBlockDelta, thoughtDelta,
      ClaudeMediaMessage.thinkingDelta, blockDelta, withTools, shownChunk, ClaudeResponse.ofType,
      ClaudeMediaMessage.ofType, Except.map, ChatCompletionsStreamResponseChoiceDelta.empty]

theorem stream_inputJsonDelta (i : ℕ) (s : String) :
    streamResponseClaude2OpenAI (.contentBlockDelta i (.inputJsonDelta s) : ClaudeResponse J) =
      .ok (some (shownChunk none none [⟨some (i : ℤ), "", "", s⟩])) := by
  simp [ClaudeResponse.contentBlockDelta,
    ClaudeMediaMessage.inputJsonDelta, blockDelta, withTools, shownChunk, ClaudeResponse.ofType,
    ClaudeMediaMessage.ofType, Except.map, ChatCompletionsStreamResponseChoiceDelta.empty]

theorem stream_stop (i : ℕ) :
    streamResponseClaude2OpenAI (.contentBlockStop i : ClaudeResponse J) = .ok none := by
  simp [ClaudeResponse.contentBlockStop, ClaudeResponse.ofType]

end chunks

/-! ### The stream of a block -/

/-- What the stream of the block with the index `i` adds. -/
def mergePart (i : ℕ) (m : Merged) : BlockStream → Merged
  | .text first deltas => { m with content := m.content ++ (first ++ String.join deltas) }
  | .thinking deltas =>
      { m with reasoning := m.reasoning ++ String.join (deltas.map (·.getD "\n")) }
  | .toolUse id name deltas => { m with tools := m.tools ++ [⟨i, id, name, String.join deltas⟩] }

theorem converts_one {r : ClaudeResponse J} {chunk : ChatCompletionsStreamResponse}
    {events : List (ClaudeResponse J)} {m m' : Merged}
    (hr : streamResponseClaude2OpenAI r = .ok (some chunk))
    (h : Converts events (mergeChunk m chunk) m') : Converts (r :: events) m m' :=
  converts_cons hr h

theorem converts_stop (i : ℕ) (m : Merged) :
    Converts [(.contentBlockStop i : ClaudeResponse J)] m m :=
  converts_cons (stream_stop i) (converts_nil m)

theorem converts_textDeltas (i : ℕ) (deltas : List String) (m : Merged) :
    Converts ((deltas.map .textDelta).map (.contentBlockDelta (i : ℤ)) : List (ClaudeResponse J)) m
      { m with content := m.content ++ String.join deltas } := by
  induction deltas generalizing m with
  | nil => simpa using converts_nil m
  | cons s deltas ih =>
      apply converts_one (stream_textDelta i s)
      have h := ih (mergeChunk m (shownChunk (some s) none []))
      rw [mergeChunk_shown] at h ⊢
      simpa [String.append_assoc] using h

theorem converts_thinkingDeltas (i : ℕ) (deltas : List (Option String)) (m : Merged) :
    Converts
      ((deltas.map thoughtDelta).map (.contentBlockDelta (i : ℤ)) : List (ClaudeResponse J)) m
      { m with reasoning := m.reasoning ++ String.join (deltas.map (·.getD "\n")) } := by
  induction deltas generalizing m with
  | nil => simpa using converts_nil m
  | cons s deltas ih =>
      apply converts_one (stream_thoughtDelta i s)
      have h := ih (mergeChunk m (shownChunk none (some (s.getD "\n")) []))
      rw [mergeChunk_shown] at h ⊢
      simpa [String.append_assoc] using h

theorem converts_inputDeltas (i : ℕ) (id name arguments : String) (deltas : List String)
    (m : Merged) (tools : List MergedTool) (hfresh : ∀ u ∈ tools, u.index ≠ (i : ℤ)) :
    Converts
      ((deltas.map .inputJsonDelta).map (.contentBlockDelta (i : ℤ)) : List (ClaudeResponse J))
      { m with tools := tools ++ [⟨i, id, name, arguments⟩] }
      { m with tools := tools ++ [⟨i, id, name, arguments ++ String.join deltas⟩] } := by
  induction deltas generalizing arguments with
  | nil => simpa using converts_nil _
  | cons s deltas ih =>
      apply converts_one (stream_inputJsonDelta i s)
      rw [mergeChunk_call, mergeTool_last hfresh]
      have h := ih (arguments ++ s)
      rw [String.append_assoc, ← String.join_cons] at h
      exact h

/-- **The stream of a block.** -/
theorem converts_block (codec : Codec J) (i : ℕ) (part : BlockStream) (m : Merged)
    (hfresh : ∀ u ∈ m.tools, u.index ≠ (i : ℤ)) :
    Converts (blockEvents codec i part) m (mergePart i m part) := by
  unfold blockEvents
  cases part with
  | text first deltas =>
      apply converts_one (stream_startText i first)
      apply converts_append ?_ (converts_stop i _)
      have h := converts_textDeltas (J := J) i deltas
        (mergeChunk m (shownChunk (some first) none []))
      rw [mergeChunk_shown] at h ⊢
      simpa [BlockStream.deltas, mergePart, String.append_assoc] using h
  | thinking deltas =>
      apply converts_one (stream_startThinking i "")
      apply converts_append ?_ (converts_stop i _)
      have h := converts_thinkingDeltas (J := J) i deltas
        (mergeChunk m (shownChunk none none []))
      rw [mergeChunk_shown] at h ⊢
      simpa [BlockStream.deltas, mergePart] using h
  | toolUse id name deltas =>
      apply converts_one (stream_startTool i id name (some codec.emptyObject))
      apply converts_append ?_ (converts_stop i _)
      rw [mergeChunk_call, mergeTool_new hfresh]
      have h := converts_inputDeltas (J := J) i id name "" deltas m m.tools hfresh
      simpa [BlockStream.deltas, mergePart] using h

/-- What the streams of the blocks from the index `i` on add. -/
def mergeParts : ℕ → Merged → List BlockStream → Merged
  | _, m, [] => m
  | i, m, part :: parts => mergeParts (i + 1) (mergePart i m part) parts

theorem mergePart_fresh (i : ℕ) (m : Merged) (part : BlockStream)
    (h : ∀ u ∈ m.tools, u.index < (i : ℤ)) :
    ∀ u ∈ (mergePart i m part).tools, u.index < ((i + 1 : ℕ) : ℤ) := by
  intro u hu
  cases part with
  | text first deltas =>
      have := h u hu
      omega
  | thinking deltas =>
      have := h u hu
      omega
  | toolUse id name deltas =>
      rcases List.mem_append.mp hu with hu | hu
      · have := h u hu
        omega
      · rw [List.mem_singleton.mp hu]
        dsimp only
        omega

theorem converts_blocks (codec : Codec J) (parts : List BlockStream) (i : ℕ) (m : Merged)
    (h : ∀ u ∈ m.tools, u.index < (i : ℤ)) :
    Converts (blocksEvents codec i parts) m (mergeParts i m parts) := by
  induction parts generalizing i m with
  | nil => exact converts_nil m
  | cons part parts ih =>
      have hfresh : ∀ u ∈ m.tools, u.index ≠ (i : ℤ) := by
        intro u hu
        have := h u hu
        omega
      exact converts_append (converts_block codec i part m hfresh)
        (ih (i + 1) (mergePart i m part) (mergePart_fresh i m part h))

/-! ### The stream of a message -/

def partText : BlockStream → String
  | .text first deltas => first ++ String.join deltas
  | _ => ""

/-- A signature is a line break. -/
def partThinking : BlockStream → String
  | .thinking deltas => String.join (deltas.map (·.getD "\n"))
  | _ => ""

def partCalls (i : ℕ) : BlockStream → List MergedTool
  | .toolUse id name deltas => [⟨i, id, name, String.join deltas⟩]
  | _ => []

/-- The tool calls of the blocks from the index `i` on. -/
def callsFrom : ℕ → List BlockStream → List MergedTool
  | _, [] => []
  | i, part :: parts => partCalls i part ++ callsFrom (i + 1) parts

theorem mergePart_eq (i : ℕ) (m : Merged) (part : BlockStream) :
    mergePart i m part =
      { m with
        content := m.content ++ partText part
        reasoning := m.reasoning ++ partThinking part
        tools := m.tools ++ partCalls i part } := by
  cases part <;> simp [mergePart, partText, partThinking, partCalls]

theorem mergeParts_eq (parts : List BlockStream) (i : ℕ) (m : Merged) :
    mergeParts i m parts =
      { m with
        content := m.content ++ String.join (parts.map partText)
        reasoning := m.reasoning ++ String.join (parts.map partThinking)
        tools := m.tools ++ callsFrom i parts } := by
  induction parts generalizing i m with
  | nil => simp [mergeParts, callsFrom]
  | cons part parts ih =>
      unfold mergeParts
      rw [ih, mergePart_eq]
      simp [callsFrom, String.append_assoc]

/-- The finish reason that a stream delivers. -/
def deliveredReason (stopReason : String) : Option String :=
  if claudeStopReasonToOpenAIFinishReason stopReason = "null" then none
  else some (claudeStopReasonToOpenAIFinishReason stopReason)

/-- What the chunks of the message merge to. -/
def mergedMessage (message : ClaudeMessage J) (parts : List BlockStream) : Merged :=
  ⟨String.join (parts.map partText), String.join (parts.map partThinking), callsFrom 0 parts,
    deliveredReason message.stopReason, none⟩

theorem converts_start (message : ClaudeMessage J) (us : Option ClaudeUsage)
    {events : List (ClaudeResponse J)} {m m' : Merged} (h : Converts events m m') :
    Converts (.messageStart message.id message.model us :: events) m m' := by
  have hr : streamResponseClaude2OpenAI
      (.messageStart message.id message.model us : ClaudeResponse J) =
      .ok
        (some (chunkOf message.id message.model ⟨some "", none, none, "assistant", []⟩ none)) := by
    simp [streamResponseClaude2OpenAI, ClaudeResponse.messageStart, ClaudeResponse.ofType,
      ClaudeMediaMessage.ofType, ChatCompletionsStreamResponseChoiceDelta.empty]
  apply converts_one hr
  simpa [mergeChunk, chunkOf, mergeChoice, mergeTools,
    ChatCompletionsStreamResponseChoiceDelta.getContentString,
    ChatCompletionsStreamResponseChoiceDelta.getReasoningContent] using h

theorem converts_finish (ud : Option ClaudeUsage) (stopReason : String) (m : Merged)
    (hm : m.finishReason = none) :
    Converts [(.messageDelta ud (some stopReason) : ClaudeResponse J), .messageStop] m
      { m with finishReason := deliveredReason stopReason } := by
  have hr : streamResponseClaude2OpenAI
      (.messageDelta ud (some stopReason) : ClaudeResponse J) =
      .ok (some (chunkOf "" "" .empty (deliveredReason stopReason))) := by
    simp [streamResponseClaude2OpenAI, ClaudeResponse.messageDelta, deliveredReason,
      ClaudeResponse.ofType,
      ClaudeMediaMessage.ofType]
  have hstop : streamResponseClaude2OpenAI (.messageStop : ClaudeResponse J) =
      .ok none := by
    simp [streamResponseClaude2OpenAI, ClaudeResponse.messageStop, ClaudeResponse.ofType]
  apply converts_one hr
  have h := converts_cons hstop (converts_nil { m with finishReason := deliveredReason stopReason })
  simpa [mergeChunk, chunkOf, mergeChoice, mergeTools, hm,
    ChatCompletionsStreamResponseChoiceDelta.empty,
    ChatCompletionsStreamResponseChoiceDelta.getContentString,
    ChatCompletionsStreamResponseChoiceDelta.getReasoningContent] using h

/-- **The stream of a message.** -/
theorem converts_message {codec : Codec J} {message : ClaudeMessage J} {parts : List BlockStream}
    {events : List (ClaudeResponse J)} (h : Transmits codec message parts events) :
    Converts events .empty (mergedMessage message parts) := by
  obtain ⟨_, us, ud, hevents⟩ := h
  apply converts_filter
  rw [hevents]
  unfold messageEvents
  apply converts_start
  have hblocks := converts_blocks codec parts 0 .empty (by simp [Merged.empty])
  rw [mergeParts_eq] at hblocks
  have hfinish := @converts_finish J ud message.stopReason
    ⟨String.join (parts.map partText), String.join (parts.map partThinking), callsFrom 0 parts,
      none, none⟩ rfl
  exact converts_append (by simpa [Merged.empty] using hblocks) hfinish

/-! ### The conversion of a message -/

def blockCalls (codec : Codec J) : Block J → List ToolCallResponse
  | .toolUse id name input => [⟨none, id, name, codec.marshal input⟩]
  | _ => []

/-- The thinking block that is collected last, from `s` on. -/
def lastThinking : String → List (Block J) → String
  | s, [] => s
  | _, .thinking t :: blocks => lastThinking t blocks
  | s, .text _ :: blocks => lastThinking s blocks
  | s, .toolUse _ _ _ :: blocks => lastThinking s blocks

/-- The thinking of the first block. -/
def firstThinking : List (Block J) → String
  | .thinking t :: _ => t
  | _ => ""

/-- The thinking that the conversion of a message keeps. -/
def keptThinking (blocks : List (Block J)) : String :=
  if lastThinking "" blocks ≠ "" then lastThinking "" blocks else firstThinking blocks

theorem collect_blocks (codec : Codec J) (blocks : List (Block J)) (acc : Collected) :
    (blocks.map Block.media).foldl (collect codec) acc =
      ⟨acc.responseText ++ String.join (blocks.map Block.shownText),
        acc.tools ++ blocks.flatMap (blockCalls codec),
        lastThinking acc.thinkingContent blocks⟩ := by
  induction blocks generalizing acc with
  | nil => simp [lastThinking]
  | cons block blocks ih =>
      rw [List.map_cons, List.foldl_cons, ih]
      cases block <;>
        simp [collect, Block.media, ClaudeMediaMessage.textBlock, ClaudeMediaMessage.thinkingBlock,
          ClaudeMediaMessage.toolUseBlock, ClaudeMediaMessage.ofType, Block.shownText, blockCalls,
          lastThinking, ClaudeMediaMessage.getText, String.append_assoc]

theorem firstThinking_eq (blocks : List (Block J)) :
    ((blocks.map Block.media).head?.bind (·.thinking)).getD "" = firstThinking blocks := by
  cases blocks with
  | nil => rfl
  | cons block blocks => cases block <;> rfl

/-- The choice of the converted message. -/
def messageChoice (codec : Codec J) (message : ClaudeMessage J) : OpenAITextResponseChoice :=
  ⟨⟨"assistant", String.join (message.blocks.map Block.shownText),
      if keptThinking message.blocks ≠ "" then some (keptThinking message.blocks) else none, none,
      message.blocks.flatMap (blockCalls codec)⟩,
    claudeStopReasonToOpenAIFinishReason message.stopReason⟩

theorem response_choices (codec : Codec J) (message : ClaudeMessage J) :
    (responseClaude2OpenAI codec message.response).choices = [messageChoice codec message] := by
  unfold responseClaude2OpenAI messageChoice keptThinking
  have hcontent : message.response.content = message.blocks.map Block.media := rfl
  rw [hcontent, collect_blocks, firstThinking_eq]
  by_cases hlast : lastThinking "" message.blocks = ""
  · simp [hlast, ClaudeMessage.response]
  · simp [hlast, ClaudeMessage.response]

/-! ### Agreement, part by part -/

section parts
variable {codec : Codec J} {parts : List BlockStream} {blocks : List (Block J)}

theorem texts_agree (h : List.Forall₂ (Carries codec) parts blocks) :
    parts.map partText = blocks.map Block.shownText := by
  induction h with
  | nil => rfl
  | @cons part block parts blocks hcarry _ ih =>
      have hpart : partText part = block.shownText := by
        cases part <;> cases block <;> first | exact hcarry | exact hcarry.elim | rfl
      rw [List.map_cons, List.map_cons, hpart, ih]

theorem argsValue_input {raw : String} {input : Option J} (h : CarriesInput codec raw input) :
    argsValue codec raw = some (input.getD codec.emptyObject) := by
  unfold argsValue
  rcases h with ⟨hraw, hinput⟩ | h
  · rw [if_pos (Or.inl hraw), hinput]
  · rw [if_neg, h]
    rintro (rfl | rfl)
    · rw [codec.decode_empty] at h
      cases h
    · rw [codec.decode_null] at h
      cases h

theorem argsValue_marshal (codec : Codec J) (input : Option J) :
    argsValue codec (codec.marshal input) = some (input.getD codec.emptyObject) := by
  cases input with
  | none =>
      rw [codec.marshal_none]
      exact if_pos (Or.inr rfl)
  | some v => exact argsValue_input (Or.inr (codec.decode_marshal v))

theorem calls_agree (h : List.Forall₂ (Carries codec) parts blocks) (i : ℕ) :
    (callsFrom i parts).map (mergedCall codec) =
      (blocks.flatMap (blockCalls codec)).map (responseCall codec) := by
  induction h generalizing i with
  | nil => rfl
  | @cons part block parts blocks hcarry _ ih =>
      have hpart : (partCalls i part).map (mergedCall codec) =
          (blockCalls codec block).map (responseCall codec) := by
        cases part with
        | text first deltas => cases block <;> first | exact hcarry.elim | rfl
        | thinking deltas => cases block <;> first | exact hcarry.elim | rfl
        | toolUse id name deltas =>
            cases block with
            | text s => exact hcarry.elim
            | thinking s => exact hcarry.elim
            | toolUse id' name' input =>
                obtain ⟨rfl, rfl, hinput⟩ := hcarry
                simp [partCalls, blockCalls, mergedCall, responseCall, argsValue_input hinput,
                  argsValue_marshal]
      unfold callsFrom
      rw [List.flatMap_cons, List.map_append, List.map_append, hpart, ih]

/-- The positions of the tool blocks, from `i` on. -/
def toolPositions : ℕ → List (Block J) → List ℕ
  | _, [] => []
  | i, block :: blocks =>
      if block.isTool then i :: toolPositions (i + 1) blocks else toolPositions (i + 1) blocks

theorem indices_eq (h : List.Forall₂ (Carries codec) parts blocks) (i : ℕ) :
    (callsFrom i parts).map (·.index) = (toolPositions i blocks).map Int.ofNat := by
  induction h generalizing i with
  | nil => rfl
  | @cons part block parts blocks hcarry _ ih =>
      unfold callsFrom toolPositions
      rw [List.map_append, ih]
      cases part <;> cases block <;> first | exact hcarry.elim | rfl

theorem toolPositions_ge (blocks : List (Block J)) (i : ℕ) :
    ∀ p ∈ toolPositions i blocks, i ≤ p := by
  induction blocks generalizing i with
  | nil =>
      intro p hp
      cases hp
  | cons block blocks ih =>
      intro p hp
      unfold toolPositions at hp
      by_cases ht : block.isTool = true
      · rw [if_pos ht] at hp
        rcases List.mem_cons.mp hp with rfl | hp
        · exact Nat.le_refl p
        · have := ih (i + 1) p hp
          omega
      · rw [if_neg ht] at hp
        have := ih (i + 1) p hp
        omega

theorem toolPositions_eq_nil (blocks : List (Block J)) (i : ℕ) :
    toolPositions i blocks = [] ↔ ∀ c ∈ blocks, ¬ c.isTool = true := by
  induction blocks generalizing i with
  | nil => simp [toolPositions]
  | cons block blocks ih =>
      unfold toolPositions
      by_cases ht : block.isTool = true
      · simp [ht]
      · simp [ht, ih]

/-- The positions have no gaps exactly if the tools come first. -/
theorem toolPositions_iff (blocks : List (Block J)) (i : ℕ) :
    toolPositions i blocks = List.range' i (toolPositions i blocks).length ↔
      ToolsFirst blocks := by
  unfold ToolsFirst
  induction blocks generalizing i with
  | nil => simp [toolPositions]
  | cons block blocks ih =>
      rw [List.pairwise_cons]
      by_cases ht : block.isTool = true
      · have hpos : toolPositions i (block :: blocks) = i :: toolPositions (i + 1) blocks :=
          if_pos ht
        rw [hpos, List.length_cons, List.range'_succ, List.cons_inj_right, ih]
        exact ⟨fun h => ⟨fun c _ _ => ht, h⟩, And.right⟩
      · have hpos : toolPositions i (block :: blocks) = toolPositions (i + 1) blocks :=
          if_neg ht
        have hnone : (∀ c ∈ blocks, c.isTool = true → block.isTool = true) ↔
            toolPositions (i + 1) blocks = [] := by
          rw [toolPositions_eq_nil]
          exact forall₂_congr fun c _ => ⟨fun h hc => ht (h hc), fun h hc => absurd hc h⟩
        rw [hpos, hnone]
        constructor
        · intro h
          have hnil : toolPositions (i + 1) blocks = [] := by
            cases hl : toolPositions (i + 1) blocks with
            | nil => rfl
            | cons p ps =>
                rw [hl, List.length_cons, List.range'_succ] at h
                injection h with hp _
                have := toolPositions_ge blocks (i + 1) p (hl ▸ List.mem_cons_self)
                omega
          refine ⟨hnil, (ih (i + 1)).mp ?_⟩
          rw [hnil]
          rfl
        · rintro ⟨hnil, _⟩
          rw [hnil]
          rfl

theorem indices_iff (h : List.Forall₂ (Carries codec) parts blocks) :
    (callsFrom 0 parts).map (·.index) =
        (List.range (callsFrom 0 parts).length).map Int.ofNat ↔ ToolsFirst blocks := by
  have hlen : (callsFrom 0 parts).length = (toolPositions 0 blocks).length := by
    have := congrArg List.length (indices_eq h 0)
    simpa using this
  have hinj : Function.Injective (List.map Int.ofNat) :=
    List.map_injective_iff.mpr fun a b hab => Int.ofNat.inj hab
  rw [indices_eq h, hlen, hinj.eq_iff, List.range_eq_range', toolPositions_iff]

end parts

/-! ### The thinking -/

theorem lastThinking_append (pre : List (Block J)) (t : String) (post : List (Block J))
    (s : String) : lastThinking s (pre ++ .thinking t :: post) = lastThinking t post := by
  induction pre generalizing s with
  | nil => rfl
  | cons block pre ih => cases block <;> exact ih _

/-- What is collected is what there was, or the last thinking block. -/
theorem lastThinking_cases (blocks : List (Block J)) (s : String) :
    (lastThinking s blocks = s ∧ ∀ u, Block.thinking u ∉ blocks) ∨
      ∃ pre post, blocks = pre ++ .thinking (lastThinking s blocks) :: post ∧
        ∀ u, Block.thinking u ∉ post := by
  induction blocks generalizing s with
  | nil => exact Or.inl ⟨rfl, fun u => List.not_mem_nil⟩
  | cons block blocks ih =>
      have hlift : ∀ s', (∃ pre post,
          blocks = pre ++ .thinking (lastThinking s' blocks) :: post ∧
            ∀ u, Block.thinking u ∉ post) →
          ∃ pre post, block :: blocks = pre ++ .thinking (lastThinking s' blocks) :: post ∧
            ∀ u, Block.thinking u ∉ post := by
        rintro s' ⟨pre, post, heq, hpost⟩
        refine ⟨block :: pre, post, ?_, hpost⟩
        rw [List.cons_append, ← heq]
      cases block with
      | text t =>
          rcases ih s with ⟨h, hnone⟩ | h
          · exact Or.inl ⟨h, fun u hu => hnone u (by simpa using hu)⟩
          · exact Or.inr (hlift s h)
      | toolUse i n input =>
          rcases ih s with ⟨h, hnone⟩ | h
          · exact Or.inl ⟨h, fun u hu => hnone u (by simpa using hu)⟩
          · exact Or.inr (hlift s h)
      | thinking t =>
          right
          rcases ih t with ⟨h, hnone⟩ | h
          · refine ⟨[], blocks, ?_, hnone⟩
            show Block.thinking t :: blocks = Block.thinking (lastThinking t blocks) :: blocks
            rw [h]
          · exact hlift t h

theorem firstThinking_cases (blocks : List (Block J)) :
    firstThinking blocks = "" ∨ ∃ post, blocks = .thinking (firstThinking blocks) :: post := by
  cases blocks with
  | nil => exact Or.inl rfl
  | cons block blocks =>
      cases block with
      | text t => exact Or.inl rfl
      | thinking t => exact Or.inr ⟨blocks, rfl⟩
      | toolUse i n input => exact Or.inl rfl

/-- The kept thinking is that of the first block or of the last thinking block. -/
theorem keptThinking_cases (blocks : List (Block J)) :
    keptThinking blocks = "" ∨
      ∃ pre post, blocks = pre ++ .thinking (keptThinking blocks) :: post ∧
        (pre = [] ∨ ∀ u, Block.thinking u ∉ post) := by
  unfold keptThinking
  by_cases hlast : lastThinking "" blocks = ""
  · rw [if_neg (not_not_intro hlast)]
    rcases firstThinking_cases blocks with h | ⟨post, h⟩
    · exact Or.inl h
    · exact Or.inr ⟨[], post, h, Or.inl rfl⟩
  · rw [if_pos hlast]
    rcases lastThinking_cases blocks "" with ⟨h, _⟩ | ⟨pre, post, h, hpost⟩
    · exact absurd h hlast
    · exact Or.inr ⟨pre, post, h, Or.inr hpost⟩

theorem join_thought_none {blocks : List (Block J)} (h : ∀ u, .thinking u ∈ blocks → u = "") :
    String.join (blocks.map Block.thought) = "" := by
  induction blocks with
  | nil => rfl
  | cons block blocks ih =>
      rw [List.map_cons, String.join_cons, ih fun u hu => h u (List.mem_cons_of_mem _ hu)]
      cases block with
      | text t => rfl
      | toolUse i n input => rfl
      | thinking t =>
          rw [h t List.mem_cons_self]
          rfl

theorem keptThinking_none {blocks : List (Block J)} (h : ∀ u, .thinking u ∈ blocks → u = "") :
    keptThinking blocks = "" := by
  rcases keptThinking_cases blocks with hkept | ⟨pre, post, heq, _⟩
  · exact hkept
  · have hmem : Block.thinking (keptThinking blocks) ∈
        pre ++ .thinking (keptThinking blocks) :: post :=
      List.mem_append_right pre List.mem_cons_self
    rw [← heq] at hmem
    exact h _ hmem

/-- A thinking block that is alone, and the first block or the last thinking block, is kept. -/
theorem keptThinking_one {pre post : List (Block J)} {t : String} (ht : t ≠ "")
    (hothers : ∀ u, .thinking u ∈ pre ++ post → u = "")
    (hplace : pre = [] ∨ ∀ u, Block.thinking u ∉ post) :
    keptThinking (pre ++ .thinking t :: post) = t := by
  unfold keptThinking
  rw [lastThinking_append]
  rcases lastThinking_cases post t with ⟨h, _⟩ | ⟨p, q, hpq, _⟩
  · rw [h, if_pos ht]
  · have hmem : Block.thinking (lastThinking t post) ∈ p ++ .thinking (lastThinking t post) :: q :=
      List.mem_append_right p List.mem_cons_self
    rw [← hpq] at hmem
    rcases hplace with rfl | hnone
    · rw [hothers _ hmem, if_neg (not_not_intro rfl)]
      rfl
    · exact absurd hmem (hnone _)

/-- Thinking that is all in the first block or in the last thinking block is kept. -/
theorem keptThinking_of_one {blocks : List (Block J)} (h : OneThinking blocks) :
    keptThinking blocks = String.join (blocks.map Block.thought) := by
  rcases h with hall | ⟨pre, t, post, rfl, hothers, hplace⟩
  · rw [join_thought_none hall, keptThinking_none hall]
  · have hpre := join_thought_none fun u hu => hothers u (List.mem_append_left post hu)
    have hpost := join_thought_none fun u hu => hothers u (List.mem_append_right pre hu)
    have hsum : String.join ((pre ++ .thinking t :: post).map Block.thought) = t := by
      rw [List.map_append, List.map_cons, String.join_append, String.join_cons, hpre, hpost]
      simp [Block.thought]
    rw [hsum]
    by_cases ht : t = ""
    · rw [ht]
      apply keptThinking_none
      intro u hu
      rcases List.mem_append.mp hu with hu | hu
      · exact hothers u (List.mem_append_left post hu)
      · rcases List.mem_cons.mp hu with heq | hu
        · rw [Block.thinking.inj heq]
        · exact hothers u (List.mem_append_right pre hu)
    · exact keptThinking_one ht hothers hplace

/-! ### The reasoning of the stream -/

def signatures : BlockStream → ℕ
  | .thinking deltas => deltas.count none
  | _ => 0

theorem join_signatures (deltas : List (Option String)) :
    (String.join (deltas.map (·.getD "\n"))).length =
      (String.join (deltas.map (·.getD ""))).length + deltas.count none := by
  induction deltas with
  | nil => rfl
  | cons d deltas ih =>
      rw [List.map_cons, List.map_cons, String.join_cons, String.join_cons, String.length_append,
        String.length_append, ih, List.count_cons]
      cases d with
      | none =>
          have hline : ((none : Option String).getD "\n").length = 1 := rfl
          have hempty : ((none : Option String).getD "").length = 0 := rfl
          rw [hline, hempty, if_pos (by rfl)]
          omega
      | some s =>
          rw [if_neg (by simp)]
          simp only [Option.getD_some]
          omega

section reasoning
variable {codec : Codec J} {parts : List BlockStream} {blocks : List (Block J)}

theorem carries_thinking {part : BlockStream} {block : Block J} (h : Carries codec part block) :
    (partThinking part).length = block.thought.length + signatures part := by
  cases part with
  | text first deltas => cases block <;> first | exact h.elim | rfl
  | toolUse id name deltas => cases block <;> first | exact h.elim | rfl
  | thinking deltas =>
      cases block with
      | text t => exact h.elim
      | toolUse id name input => exact h.elim
      | thinking t =>
          have hcarry : String.join (deltas.map (·.getD "")) = t := h
          show (String.join (deltas.map (·.getD "\n"))).length = t.length + deltas.count none
          rw [join_signatures, hcarry]

theorem thinking_length (h : List.Forall₂ (Carries codec) parts blocks) :
    (String.join (parts.map partThinking)).length =
      (String.join (blocks.map Block.thought)).length + (parts.map signatures).sum := by
  induction h with
  | nil => rfl
  | cons hcarry _ ih =>
      simp only [List.map_cons, String.join_cons, String.length_append, List.sum_cons, ih,
        carries_thinking hcarry]
      omega

theorem unsigned_iff : Unsigned parts ↔ (parts.map signatures).sum = 0 := by
  rw [List.sum_eq_zero_iff_forall_eq_nat]
  constructor
  · intro h n hn
    obtain ⟨part, hpart, rfl⟩ := List.mem_map.mp hn
    cases part with
    | text first deltas => rfl
    | toolUse id name deltas => rfl
    | thinking deltas => exact List.count_eq_zero.mpr (h deltas hpart)
  · intro h deltas hpart
    exact List.count_eq_zero.mp (h _ (List.mem_map_of_mem hpart))

/-- Without signatures the stream shows the thinking as it is. -/
theorem thinking_unsigned (h : List.Forall₂ (Carries codec) parts blocks)
    (hunsigned : Unsigned parts) :
    String.join (parts.map partThinking) = String.join (blocks.map Block.thought) := by
  induction h with
  | nil => rfl
  | @cons part block parts blocks hcarry _ ih =>
      have hpart : partThinking part = block.thought := by
        cases part with
        | text first deltas => cases block <;> first | exact hcarry.elim | rfl
        | toolUse id name deltas => cases block <;> first | exact hcarry.elim | rfl
        | thinking deltas =>
            cases block with
            | text t => exact hcarry.elim
            | toolUse id name input => exact hcarry.elim
            | thinking t =>
                rw [← (hcarry : String.join (deltas.map (·.getD "")) = t)]
                have hsome : ∀ d ∈ deltas, d.getD "\n" = d.getD "" := by
                  intro d hd
                  cases d with
                  | none => exact absurd hd (hunsigned deltas List.mem_cons_self)
                  | some s => rfl
                exact congrArg String.join (List.map_congr_left hsome)
      rw [List.map_cons, List.map_cons, hpart,
        String.join_cons, String.join_cons, ih fun d hd => hunsigned d (List.mem_cons_of_mem _ hd)]

theorem thought_empty (h : (String.join (blocks.map Block.thought)).length = 0) :
    ∀ u, .thinking u ∈ blocks → u = "" := by
  intro u hu
  rw [String.length_join, List.sum_eq_zero_iff_forall_eq_nat, List.map_map] at h
  exact String.length_eq_zero_iff.mp
    (h u.length (List.mem_map.mpr ⟨.thinking u, hu, rfl⟩))

/-- **The reasoning** of stream and message agree exactly if nothing is signed and all thinking is
in one block that is kept. -/
theorem reasoning_iff (h : List.Forall₂ (Carries codec) parts blocks) :
    String.join (parts.map partThinking) = keptThinking blocks ↔
      Unsigned parts ∧ OneThinking blocks := by
  constructor
  · intro heq
    have hlen := congrArg String.length heq
    rw [thinking_length h] at hlen
    rw [unsigned_iff]
    rcases keptThinking_cases blocks with hkept | ⟨pre, post, hsplit, hplace⟩
    · rw [hkept, String.length_empty] at hlen
      exact ⟨by omega, Or.inl (thought_empty (by omega))⟩
    · have hsum : (String.join (blocks.map Block.thought)).length =
          (String.join ((pre ++ post).map Block.thought)).length +
            (keptThinking blocks).length := by
        conv_lhs => rw [hsplit]
        simp only [List.map_append, List.map_cons, String.join_append, String.join_cons,
          String.length_append, Block.thought]
        omega
      refine ⟨by omega, Or.inr ⟨pre, keptThinking blocks, post, hsplit, ?_, hplace⟩⟩
      exact thought_empty (by omega)
  · rintro ⟨hunsigned, hone⟩
    rw [thinking_unsigned h hunsigned, keptThinking_of_one hone]

end reasoning

/-! ### Agreement -/

theorem finishReason_null (stopReason : String) :
    claudeStopReasonToOpenAIFinishReason stopReason = "null" ↔ stopReason = "null" := by
  constructor
  · intro h
    unfold claudeStopReasonToOpenAIFinishReason at h
    dsimp only at h
    split_ifs at h
    · exact absurd h (by decide)
    · exact absurd h (by decide)
    · exact absurd h (by decide)
    · exact absurd h (by decide)
    · exact absurd h (by decide)
    · exact h
  · rintro rfl
    decide

theorem deliveredReason_iff (stopReason : String) :
    deliveredReason stopReason = some (claudeStopReasonToOpenAIFinishReason stopReason) ↔
      stopReason ≠ "null" := by
  unfold deliveredReason
  by_cases h : stopReason = "null"
  · rw [if_pos ((finishReason_null stopReason).mpr h)]
    simp [h]
  · rw [if_neg (mt (finishReason_null stopReason).mp h)]
    simp [h]

/-- The stream converts, and its chunks merge to what the conversion of the message says. -/
def StreamAgrees (codec : Codec J) (message : ClaudeMessage J) (events : List (ClaudeResponse J)) :
    Prop :=
  ∃ chunks choice, streamChunks events = .ok chunks ∧
    (responseClaude2OpenAI codec message.response).choices = [choice] ∧
    Agrees codec (mergeChunks .empty chunks) choice

theorem messageChoice_reasoning (codec : Codec J) (message : ClaudeMessage J) :
    (messageChoice codec message).message.getReasoningContent = keptThinking message.blocks := by
  unfold messageChoice Message.getReasoningContent
  by_cases h : keptThinking message.blocks = ""
  · simp [h]
  · simp [h]

theorem agrees_iff {codec : Codec J} {message : ClaudeMessage J} {parts : List BlockStream}
    (h : List.Forall₂ (Carries codec) parts message.blocks) :
    Agrees codec (mergedMessage message parts) (messageChoice codec message) ↔
      (Unsigned parts ∧ OneThinking message.blocks) ∧ ToolsFirst message.blocks ∧
        message.stopReason ≠ "null" := by
  rw [← reasoning_iff h, ← indices_iff h, ← deliveredReason_iff]
  constructor
  · intro hagrees
    have hreasoning := hagrees.reasoning
    rw [messageChoice_reasoning] at hreasoning
    exact ⟨hreasoning, hagrees.indices, hagrees.finishReason⟩
  · rintro ⟨hreasoning, hindices, hfinish⟩
    exact
      { content := congrArg String.join (texts_agree h)
        reasoning := by
          rw [messageChoice_reasoning]
          exact hreasoning
        calls := calls_agree h 0
        indices := hindices
        finishReason := hfinish }

theorem streamAgrees_iff {codec : Codec J} {message : ClaudeMessage J} {parts : List BlockStream}
    {events : List (ClaudeResponse J)} (h : Transmits codec message parts events) :
    StreamAgrees codec message events ↔
      (Unsigned parts ∧ OneThinking message.blocks) ∧ ToolsFirst message.blocks ∧
        message.stopReason ≠ "null" := by
  obtain ⟨chunks, hchunks, hmerged⟩ := converts_message h
  rw [← agrees_iff h.1]
  constructor
  · rintro ⟨chunks', choice, hchunks', hchoice, hagrees⟩
    rw [hchunks] at hchunks'
    cases hchunks'
    rw [response_choices] at hchoice
    cases hchoice
    rw [← hmerged]
    exact hagrees
  · intro hagrees
    rw [← hmerged] at hagrees
    exact ⟨chunks, _, hchunks, response_choices codec message, hagrees⟩

/-- **Agreement.** A valid stream of a message never makes the conversion panic, and its chunks
merge to what the conversion of the message says exactly if nothing is signed, all thinking is in
the first block or in the last thinking block, the tools come first, and the stop reason is not the
word `null`. -/
theorem stream_agrees_exactly {codec : Codec J} {message : ClaudeMessage J}
    {parts : List BlockStream} {events : List (ClaudeResponse J)}
    (h : Transmits codec message parts events) :
    (∃ chunks, streamChunks events = .ok chunks) ∧
      (StreamAgrees codec message events ↔
        (Unsigned parts ∧ OneThinking message.blocks) ∧ ToolsFirst message.blocks ∧
          message.stopReason ≠ "null") := by
  obtain ⟨chunks, hchunks, _⟩ := converts_message h
  exact ⟨⟨chunks, hchunks⟩, streamAgrees_iff h⟩

/-! ### Examples -/

/-- Two inputs of a tool. -/
inductive Args where
  | empty
  | query
  deriving DecidableEq

def argsText : Args → String
  | .empty => "\x7b\x7d"
  | .query => "\x7b\"q\":1\x7d"

def argsCodec : Codec Args where
  decode s := if s = argsText .empty then some .empty
    else if s = argsText .query then some .query else none
  marshal v := (v.map argsText).getD "null"
  emptyObject := .empty
  decode_empty := by decide
  decode_null := by decide
  marshal_none := rfl
  decode_marshal v := by cases v <;> decide

def toolFirst : ClaudeMessage Args :=
  ⟨"msg_1", "claude", [.toolUse "toolu_1" "search" none, .toolUse "toolu_2" "search" (some .query),
    .thinking "so", .text "done"], "end_turn"⟩

def toolFirstParts : List BlockStream :=
  [.toolUse "toolu_1" "search" [""], .toolUse "toolu_2" "search" ["\x7b\"q\"", ":1\x7d"],
    .thinking [some "s", some "o"], .text "" ["do", "ne"]]

/-- The usages of a start and of a delta. -/
def startCounts : ClaudeUsage := { ClaudeUsage.empty with inputTokens := 20, outputTokens := 1 }
def deltaCounts : ClaudeUsage := { ClaudeUsage.empty with outputTokens := 12 }

/-- The events of a message that reports its usage. -/
def reportedEvents (message : ClaudeMessage Args) (parts : List BlockStream) :
    List (ClaudeResponse Args) :=
  messageEvents argsCodec message parts (some startCounts) (some deltaCounts)

theorem toolFirst_carried :
    List.Forall₂ (Carries argsCodec) toolFirstParts toolFirst.blocks := by
  refine .cons ⟨rfl, rfl, Or.inl ?_⟩ (.cons ⟨rfl, rfl, Or.inr ?_⟩ (.cons ?_ (.cons ?_ .nil)))
  · exact ⟨by decide, rfl⟩
  · decide
  · show String.join _ = _
    decide
  · show _ ++ String.join _ = _
    decide

theorem stream_agrees_toolFirst :
    Transmits argsCodec toolFirst toolFirstParts
        (.ofType "ping" :: reportedEvents toolFirst toolFirstParts) ∧
      StreamAgrees argsCodec toolFirst
        (.ofType "ping" :: reportedEvents toolFirst toolFirstParts) := by
  have h : Transmits argsCodec toolFirst toolFirstParts
      (.ofType "ping" :: reportedEvents toolFirst toolFirstParts) :=
    ⟨toolFirst_carried, _, _, rfl⟩
  refine ⟨h, (stream_agrees_exactly h).2.mpr ⟨⟨?_, ?_⟩, ?_, by decide⟩⟩
  · intro deltas hd
    simp only [toolFirstParts, List.mem_cons, reduceCtorEq, BlockStream.thinking.injEq,
      List.not_mem_nil, or_false, false_or] at hd
    rw [hd]
    decide
  · refine Or.inr ⟨[.toolUse "toolu_1" "search" none, .toolUse "toolu_2" "search" (some .query)],
      "so", [.text "done"], rfl, ?_, Or.inr ?_⟩
    · simp
    · simp
  · unfold ToolsFirst
    simp [toolFirst, Block.isTool]

/-- A text and a tool call, whose index is one in the stream. -/
def textFirst : ClaudeMessage Args :=
  ⟨"msg_2", "claude", [.text "hi", .toolUse "toolu_1" "search" (some .query)], "tool_use"⟩

def textFirstParts : List BlockStream :=
  [.text "" ["hi"], .toolUse "toolu_1" "search" ["\x7b\"q\":1\x7d"]]

/-- Two thinking blocks, of which the message keeps the second and the stream shows both. -/
def thinkTwice : ClaudeMessage Args :=
  ⟨"msg_3", "claude", [.thinking "a", .thinking "b"], "end_turn"⟩

def thinkTwiceParts : List BlockStream := [.thinking [some "a"], .thinking [some "b"]]

theorem streams_disagree :
    (Transmits argsCodec textFirst textFirstParts
        (reportedEvents textFirst textFirstParts) ∧
      ¬ StreamAgrees argsCodec textFirst (reportedEvents textFirst textFirstParts)) ∧
    (Transmits argsCodec thinkTwice thinkTwiceParts
        (reportedEvents thinkTwice thinkTwiceParts) ∧
      ¬ StreamAgrees argsCodec thinkTwice
        (reportedEvents thinkTwice thinkTwiceParts)) := by
  have htext : Transmits argsCodec textFirst textFirstParts
      (reportedEvents textFirst textFirstParts) := by
    refine ⟨.cons ?_ (.cons ⟨rfl, rfl, Or.inr ?_⟩ .nil), _, _, rfl⟩
    · show _ ++ String.join _ = _
      decide
    · decide
  have hthink : Transmits argsCodec thinkTwice thinkTwiceParts
      (reportedEvents thinkTwice thinkTwiceParts) := by
    refine ⟨.cons ?_ (.cons ?_ .nil), _, _, rfl⟩
    · show String.join _ = _
      decide
    · show String.join _ = _
      decide
  refine ⟨⟨htext, ?_⟩, ⟨hthink, ?_⟩⟩
  · rw [streamAgrees_iff htext]
    rintro ⟨_, hfirst, _⟩
    unfold ToolsFirst at hfirst
    simp [textFirst, Block.isTool] at hfirst
  · rw [streamAgrees_iff hthink, ← reasoning_iff hthink.1]
    rintro ⟨hreasoning, _⟩
    exact absurd hreasoning (by decide)

end MaxApi.Convert
