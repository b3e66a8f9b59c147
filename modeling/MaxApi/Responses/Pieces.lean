import MaxApi.Responses.ChatToResponses

/-! # Responses: the pieces of a chunk

The choices of a chunk are converted piece by piece: the reasoning, the text, each tool call and the
finish reason of one choice after the other (`convertChunk_eq`), until a tool call clashes with what
has been announced of it. -/

namespace MaxApi.Responses

open Dto

/-- A piece of a choice. -/
inductive Piece where
  | part (p : Part) (delta : String)
  | toolCall (toolCall : ToolCallResponse)
  | finish (reason : Option String)
  deriving DecidableEq

def choicePieces (choice : ChatCompletionsStreamResponseChoice) : List Piece :=
  .part .reasoning choice.delta.getReasoningContent ::
    .part .message choice.delta.getContentString ::
      (choice.delta.toolCalls.map .toolCall ++ [.finish choice.finishReason])

def chunkPieces (chunk : ChatCompletionsStreamResponse) : List Piece :=
  chunk.choices.flatMap choicePieces

/-! ### Conversion piece by piece -/

namespace Progress

theorem andThen_pure (p : Progress) : (p.andThen fun s => ⟨s, [], none⟩) = p := by
  obtain ⟨s, es, error⟩ := p
  cases error with
  | none =>
      unfold andThen
      dsimp only
      rw [List.append_nil]
  | some e => rfl

theorem andThen_assoc (p : Progress) (f g : StreamState → Progress) :
    (p.andThen f).andThen g = p.andThen fun s => (f s).andThen g := by
  obtain ⟨s, es, error⟩ := p
  cases error with
  | some e => rfl
  | none =>
      unfold andThen
      dsimp only
      obtain ⟨t, fs, error⟩ := f s
      cases error with
      | some e => rfl
      | none =>
          dsimp only
          rw [List.append_assoc]

end Progress

section codec

variable (codec : ArgumentsCodec)

def convertToolCall (s : StreamState) (toolCall : ToolCallResponse) : Progress :=
  match appendToolCallDelta codec s toolCall with
  | .error e => ⟨s, [], some e⟩
  | .ok r => .emit r

def convertPiece (s : StreamState) : Piece → Progress
  | .part p delta => convertPart p delta s
  | .toolCall toolCall => convertToolCall codec s toolCall
  | .finish reason => convertFinish codec reason s

def convertPieces : StreamState → List Piece → Progress
  | s, [] => ⟨s, [], none⟩
  | s, p :: ps => (convertPiece codec s p).andThen fun s => convertPieces s ps

theorem convertPieces_cons (s : StreamState) (p : Piece) (ps : List Piece) :
    convertPieces codec s (p :: ps) =
      (convertPiece codec s p).andThen fun s => convertPieces codec s ps := rfl

theorem convertPieces_append (as bs : List Piece) :
    ∀ s, convertPieces codec s (as ++ bs) =
      (convertPieces codec s as).andThen fun s => convertPieces codec s bs := by
  induction as with
  | nil => intro s; rfl
  | cons p ps ih =>
      intro s
      rw [List.cons_append, convertPieces_cons, convertPieces_cons, Progress.andThen_assoc]
      congr 1
      funext t
      exact ih t

theorem convertToolCalls_eq :
    ∀ (toolCalls : List ToolCallResponse) (s : StreamState),
      convertToolCalls codec s toolCalls = convertPieces codec s (toolCalls.map .toolCall)
  | [], _ => rfl
  | toolCall :: toolCalls, s => by
      rw [List.map_cons, convertPieces_cons, convertToolCalls, convertPiece, convertToolCall]
      cases appendToolCallDelta codec s toolCall with
      | error e => rfl
      | ok r =>
          dsimp only
          congr 1
          funext t
          exact convertToolCalls_eq toolCalls t

theorem convertChoice_eq (s : StreamState) (choice : ChatCompletionsStreamResponseChoice) :
    convertChoice codec s choice = convertPieces codec s (choicePieces choice) := by
  unfold convertChoice choicePieces
  rw [convertPieces_cons, Progress.andThen_assoc, Progress.andThen_assoc]
  unfold convertPiece
  congr 1
  funext t
  rw [convertPieces_cons]
  congr 1
  funext t
  rw [convertPieces_append, convertToolCalls_eq]
  congr 1
  funext t
  exact (Progress.andThen_pure _).symm

theorem convertChoices_eq :
    ∀ (choices : List ChatCompletionsStreamResponseChoice) (s : StreamState),
      convertChoices codec s choices = convertPieces codec s (choices.flatMap choicePieces)
  | [], _ => rfl
  | choice :: choices, s => by
      rw [List.flatMap_cons, convertPieces_append, convertChoices, convertChoice_eq]
      congr 1
      funext t
      exact convertChoices_eq choices t

/-- A chunk is converted piece by piece. -/
theorem convertChunk_eq (s : StreamState) (chunk : ChatCompletionsStreamResponse) :
    convertChunk codec s chunk =
      (announceResponse (applyChunk s chunk)).andThen
        fun s => convertPieces codec s (chunkPieces chunk) := by
  unfold convertChunk chunkPieces
  congr 1
  funext t
  exact convertChoices_eq codec chunk.choices t

end codec

/-! ### What a piece meets -/

/-- The tool call changes the id or the name that has been announced. -/
def Clash (s : StreamState) : Piece → Prop
  | .toolCall toolCall =>
      ∃ tool, findTool s.tools (toolCall.index.getD 0) = some tool ∧ tool.done = false ∧
        tool.announced = true ∧
        ((Text.trimSpace toolCall.id ≠ "" ∧ tool.id ≠ Text.trimSpace toolCall.id) ∨
          (Text.trimSpace toolCall.function.name ≠ "" ∧
            tool.name ≠ Text.trimSpace toolCall.function.name))
  | _ => False

/-- The delta belongs to a text that is done. -/
def Late (s : StreamState) : Piece → Prop
  | .part p delta => delta ≠ "" ∧ (p.item s).done = true
  | _ => False

/-- The piece has something to show: a delta, a tool call with a new name or with arguments that are
passed on, or a finish reason that closes an item. -/
def Shows (s : StreamState) : Piece → Prop
  | .part _ delta => delta ≠ ""
  | .toolCall toolCall =>
      match findTool s.tools (toolCall.index.getD 0) with
      | none => Text.trimSpace toolCall.function.name ≠ ""
      | some tool =>
          tool.done = false ∧
            if tool.announced then tool.custom = false ∧ toolCall.function.arguments ≠ ""
            else Text.trimSpace toolCall.function.name ≠ ""
  | .finish reason =>
      (∃ text ∈ reason, Text.trimSpace text ≠ "") ∧
        ((∃ p : Part, (p.item s).started = true ∧ (p.item s).done = false) ∨
          ∃ tool ∈ s.tools, tool.announced = true ∧ tool.done = false)

end MaxApi.Responses
