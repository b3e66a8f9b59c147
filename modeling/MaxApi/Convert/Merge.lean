import MaxApi.Dto.OpenAI
import MaxApi.Lib.System

/-! # Conversions: merging the chunks of a chat completion

What a client makes of the chunks of a stream: contents and reasonings are concatenated, and so are
the arguments of the tool calls of one index.  The number, name and id of a tool call are those of
its first chunk. -/

namespace MaxApi.Convert

open Dto

/-- A tool call that is merged from chunks. -/
structure MergedTool where
  index : ℤ
  id : String
  name : String
  arguments : String
  deriving DecidableEq

/-- A message that is merged from chunks. -/
structure Merged where
  content : String
  reasoning : String
  tools : List MergedTool
  finishReason : Option String
  usage : Option Usage
  deriving DecidableEq

def Merged.empty : Merged := ⟨"", "", [], none, none⟩

/-- The tool call with the index `i`. -/
def mergeTool (tools : List MergedTool) (i : ℤ) (t : ToolCallResponse) : List MergedTool :=
  if ∃ u ∈ tools, u.index = i then
    tools.map fun u =>
      if u.index = i then { u with arguments := u.arguments ++ t.function.arguments } else u
  else tools ++ [⟨i, t.id, t.function.name, t.function.arguments⟩]

/-- The tool calls of a delta; one without an index has its position there. -/
def mergeTools (tools : List MergedTool) (calls : List ToolCallResponse) : List MergedTool :=
  (calls.zipIdx).foldl (fun tools c => mergeTool tools (c.1.index.getD c.2) c.1) tools

/-- The choice of a chunk. -/
def mergeChoice (m : Merged) (c : ChatCompletionsStreamResponseChoice) : Merged :=
  { m with
    content := m.content ++ c.delta.getContentString
    reasoning := m.reasoning ++ c.delta.getReasoningContent
    tools := mergeTools m.tools c.delta.toolCalls
    finishReason := c.finishReason.orElse fun _ => m.finishReason }

/-- A chunk with at most one choice. -/
def mergeChunk (m : Merged) (c : ChatCompletionsStreamResponse) : Merged :=
  let m :=
    match c.choices with
    | [] => m
    | choice :: _ => mergeChoice m choice
  { m with usage := c.usage.orElse fun _ => m.usage }

/-- The chunks of a stream. -/
def mergeChunks (m : Merged) (chunks : List ChatCompletionsStreamResponse) : Merged :=
  Transition.run mergeChunk m chunks

@[simp] theorem mergeChunks_nil (m : Merged) : mergeChunks m [] = m := rfl

@[simp] theorem mergeChunks_cons (m : Merged) (c : ChatCompletionsStreamResponse)
    (cs : List ChatCompletionsStreamResponse) :
    mergeChunks m (c :: cs) = mergeChunks (mergeChunk m c) cs := rfl

theorem mergeChunks_append (m : Merged) (as bs : List ChatCompletionsStreamResponse) :
    mergeChunks m (as ++ bs) = mergeChunks (mergeChunks m as) bs :=
  Transition.run_append mergeChunk m as bs

variable {tools : List MergedTool} {i : ℤ}

/-- A new index starts a tool call. -/
theorem mergeTool_new (h : ∀ u ∈ tools, u.index ≠ i) (t : ToolCallResponse) :
    mergeTool tools i t = tools ++ [⟨i, t.id, t.function.name, t.function.arguments⟩] := by
  unfold mergeTool
  rw [if_neg]
  rintro ⟨u, hu, hi⟩
  exact h u hu hi

/-- The last tool call is continued. -/
theorem mergeTool_last (h : ∀ u ∈ tools, u.index ≠ i) (id name arguments : String)
    (t : ToolCallResponse) :
    mergeTool (tools ++ [⟨i, id, name, arguments⟩]) i t =
      tools ++ [⟨i, id, name, arguments ++ t.function.arguments⟩] := by
  unfold mergeTool
  rw [if_pos ⟨_, List.mem_append_right _ (List.mem_singleton_self _), rfl⟩, List.map_append]
  have hsame : tools.map (fun u =>
      if u.index = i then { u with arguments := u.arguments ++ t.function.arguments } else u) =
      tools.map (fun u => u) :=
    List.map_congr_left fun u hu => if_neg (h u hu)
  rw [hsame, List.map_id']
  simp

end MaxApi.Convert
