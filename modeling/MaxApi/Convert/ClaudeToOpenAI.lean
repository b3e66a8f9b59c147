import MaxApi.Convert.Merge
import MaxApi.Dto.Claude

/-! # Conversions: from Claude to OpenAI

A Claude response is converted as a whole (`responseClaude2OpenAI`) or event by event
(`streamResponseClaude2OpenAI`).  The input of a tool is a decoded JSON value; the codec that
decodes and marshals it is a parameter. -/

namespace MaxApi.Convert

open Dto

/-- `encoding/json`, as far as the inputs of tools are concerned; `J` are the values other than
`null`.  An input that is missing is marshalled like `null`. -/
structure Codec (J : Type) where
  decode : String → Option J
  marshal : Option J → String
  emptyObject : J
  decode_empty : decode "" = none
  decode_null : decode "null" = none
  marshal_none : marshal none = "null"
  decode_marshal : ∀ v, decode (marshal (some v)) = some v

/-- `ClaudeStopReasonToOpenAIFinishReason`. -/
def claudeStopReasonToOpenAIFinishReason (stopReason : String) : String :=
  let lower := Text.toLower stopReason
  if lower = "stop_sequence" then "stop"
  else if lower = "end_turn" then "stop"
  else if lower = "max_tokens" then "length"
  else if lower = "tool_use" then "tool_calls"
  else if lower = "refusal" then "content_filter"
  else stopReason

variable {J : Type}

/-- The dereference of a nil pointer. -/
inductive Panic where
  | nilPointer
  deriving DecidableEq

/-- The chunk with one choice. -/
def chunkOf (id model : String) (delta : ChatCompletionsStreamResponseChoiceDelta)
    (finishReason : Option String) : ChatCompletionsStreamResponse :=
  ⟨id, model, [⟨delta, finishReason⟩], none⟩

/-- The delta with the tool calls; they displace the content. -/
def withTools (delta : ChatCompletionsStreamResponseChoiceDelta) (tools : List ToolCallResponse) :
    ChatCompletionsStreamResponseChoiceDelta :=
  if tools = [] then delta else { delta with content := none, toolCalls := tools }

/-- The delta and the tool calls of a `content_block_delta` event. -/
def blockDelta (fcIdx : ℤ) (d : ClaudeMediaMessage J) :
    Except Panic (ChatCompletionsStreamResponseChoiceDelta × List ToolCallResponse) :=
  let empty := ChatCompletionsStreamResponseChoiceDelta.empty
  let delta := { empty with content := d.text }
  if d.type = "input_json_delta" then
    match d.partialJson with
    | none => .error .nilPointer
    | some partialJson => .ok (delta, [⟨some fcIdx, "", "", partialJson⟩])
  else if d.type = "signature_delta" then .ok ({ delta with reasoningContent := some "\n" }, [])
  else if d.type = "thinking_delta" then .ok ({ delta with reasoningContent := d.thinking }, [])
  else .ok (delta, [])

/-- `StreamResponseClaude2OpenAI`; `none` is a nil response. -/
def streamResponseClaude2OpenAI (r : ClaudeResponse J) :
    Except Panic (Option ChatCompletionsStreamResponse) :=
  let fcIdx := r.index.getD 0
  let empty := ChatCompletionsStreamResponseChoiceDelta.empty
  if r.type = "message_start" then
    let delta := { empty with content := some "", role := "assistant" }
    match r.message with
    | none => .ok (some (chunkOf "" r.model delta none))
    | some message => .ok (some (chunkOf message.id message.model delta none))
  else if r.type = "content_block_start" then
    match r.contentBlock with
    | none => .ok none
    | some block =>
        let delta := if block.type = "text" then { empty with content := block.text } else empty
        let tools :=
          if block.type = "tool_use" then [⟨some fcIdx, block.id, block.name, ""⟩] else []
        .ok (some (chunkOf "" r.model (withTools delta tools) none))
  else if r.type = "content_block_delta" then
    match r.delta with
    | none => .ok (some (chunkOf "" r.model empty none))
    | some d => (blockDelta fcIdx d).map fun p => some (chunkOf "" r.model (withTools p.1 p.2) none)
  else if r.type = "message_delta" then
    match r.delta.bind (·.stopReason) with
    | none => .ok (some (chunkOf "" r.model empty none))
    | some reason =>
        let finishReason := claudeStopReasonToOpenAIFinishReason reason
        .ok (some (chunkOf "" r.model empty
          (if finishReason = "null" then none else some finishReason)))
  else .ok none

/-- The chunks of the events, until one panics. -/
def streamChunks : List (ClaudeResponse J) → Except Panic (List ChatCompletionsStreamResponse)
  | [] => .ok []
  | r :: events =>
      match streamResponseClaude2OpenAI r with
      | .error e => .error e
      | .ok chunk => (streamChunks events).map (chunk.toList ++ ·)

/-- What the loop of `ResponseClaude2OpenAI` has collected. -/
structure Collected where
  responseText : String
  tools : List ToolCallResponse
  thinkingContent : String

/-- The body of the loop. -/
def collect (codec : Codec J) (acc : Collected) (message : ClaudeMediaMessage J) : Collected :=
  if message.type = "tool_use" then
    { acc with
      tools := acc.tools ++ [⟨none, message.id, message.name, codec.marshal message.input⟩] }
  else if message.type = "thinking" then
    match message.thinking with
    | none => acc
    | some thinking => { acc with thinkingContent := thinking }
  else if message.type = "text" then
    { acc with responseText := acc.responseText ++ message.getText }
  else acc

/-- `ResponseClaude2OpenAI`, without the usage. -/
def responseClaude2OpenAI (codec : Codec J) (r : ClaudeResponse J) : OpenAITextResponse :=
  let responseThinking := (r.content.head?.bind (·.thinking)).getD ""
  let acc := r.content.foldl (collect codec) ⟨"", [], ""⟩
  let reasoningContent :=
    if acc.thinkingContent ≠ "" then some acc.thinkingContent
    else if responseThinking ≠ "" then some responseThinking
    else none
  { id := r.id
    model := r.model
    choices := [⟨⟨"assistant", acc.responseText, reasoningContent, none, acc.tools⟩,
      claudeStopReasonToOpenAIFinishReason r.stopReason⟩]
    usage := .empty }

end MaxApi.Convert
