import MaxApi.Dto.ChatRequest
import MaxApi.Lib.Decimal
import Mathlib.Algebra.Order.BigOperators.Group.List
import Mathlib.Data.List.Nodup
import Mathlib.Data.Rat.Floor

/-! # Conversions: Gemini requests

`GeminiToOpenAIRequest`.  The calls of a content are numbered from one, and a tool message gets the
number of calls before it in its own content; a content with calls is sent without its texts; and
the first four stop sequences are taken by a slice expression that ignores how many there are.  The
conversion keeps the conversation exactly where none of this matters (`gemini_keeps_iff`). -/

namespace MaxApi.Convert.Gemini

open MaxApi.ChatRequest

/-! ### Requests -/

structure GeminiInlineData where
  mimeType : String
  data : String
  deriving DecidableEq

structure GeminiFileData where
  mimeType : String
  fileUri : String
  deriving DecidableEq

structure FunctionCall (J : Type) where
  functionName : String
  arguments : J
  deriving DecidableEq

structure GeminiFunctionResponse (J : Type) where
  name : String
  response : J
  deriving DecidableEq

structure GeminiPart (J : Type) where
  text : String
  inlineData : Option GeminiInlineData
  fileData : Option GeminiFileData
  functionCall : Option (FunctionCall J)
  functionResponse : Option (GeminiFunctionResponse J)
  deriving DecidableEq

structure GeminiChatContent (J : Type) where
  role : String
  parts : List (GeminiPart J)
  deriving DecidableEq

/-- A slice: its elements, and those behind them in its array. -/
structure Slice (α : Type) where
  items : List α
  spare : List α
  deriving DecidableEq

/-- The slice expression `s[:n]`, which panics beyond the capacity. -/
def Slice.upTo {α : Type} (s : Slice α) (n : ℕ) : Option (List α) :=
  if n ≤ (s.items ++ s.spare).length then some ((s.items ++ s.spare).take n) else none

structure GeminiChatGenerationConfig where
  temperature : Option ℚ
  topP : Option ℚ
  topK : Option ℚ
  maxOutputTokens : Option ℕ
  candidateCount : Option ℤ
  stopSequences : Slice String
  deriving DecidableEq

/-- A tool; its declarations are the result of decoding them. -/
structure GeminiChatTool (J : Type) where
  functionDeclarations : Option (Except String (List (FunctionRequest J)))

structure GeminiChatRequest (J : Type) where
  contents : List (GeminiChatContent J)
  generationConfig : GeminiChatGenerationConfig
  tools : List (GeminiChatTool J)
  systemInstructions : Option (GeminiChatContent J)

/-- What the converter reads of `RelayInfo`. -/
structure RelayInfo where
  upstreamModelName : String
  isStream : Bool

/-- The fields of `GeneralOpenAIRequest` that the converter sets. -/
structure GeneralOpenAIRequest (J : Type) where
  model : String
  stream : Option Bool
  messages : List (Message J)
  temperature : Option ℚ
  topP : Option ℚ
  topK : Option ℤ
  maxTokens : Option ℕ
  stop : Option (List String)
  n : Option ℤ
  tools : List (ToolCallRequest J)

/-! ### Messages -/

/-- `convertGeminiRoleToOpenAI`. -/
def convertGeminiRoleToOpenAI (geminiRole : String) : String :=
  if geminiRole = "user" then "user"
  else if geminiRole = "model" then "assistant"
  else if geminiRole = "function" then "function"
  else "user"

/-- The branch of the converter that a part takes. -/
inductive Kind (J : Type) where
  | text (text : String)
  | media (content : MediaContent)
  | call (call : FunctionCall J)
  | response (response : GeminiFunctionResponse J)
  | other

section messages

variable {J : Type} (toJSONString : J → String)

def GeminiPart.kind (part : GeminiPart J) : Kind J :=
  if part.text ≠ "" then .text part.text
  else
    match part.inlineData with
    | some data =>
        .media ⟨"image_url", "", some ⟨"data:" ++ data.mimeType ++ ";base64," ++ data.data, "auto",
          data.mimeType⟩, none⟩
    | none =>
        match part.fileData with
        | some file => .media ⟨"image_url", "", some ⟨file.fileUri, "auto", file.mimeType⟩, none⟩
        | none =>
            match part.functionCall with
            | some call => .call call
            | none =>
                match part.functionResponse with
                | some response => .response response
                | none => .other

/-- The identifier of the `n`-th call of a content. -/
def callId (n : ℕ) : String := "call_" ++ toString n

def toolCall (n : ℕ) (call : FunctionCall J) : ToolCallRequest J :=
  ⟨callId n, "function", ⟨"", call.functionName, none, toJSONString call.arguments⟩⟩

def toolMessage (n : ℕ) (response : GeminiFunctionResponse J) : Message J :=
  { Message.ofRole "tool" with
    toolCallId := callId n
    content := .text (toJSONString response.response) }

/-- The messages so far, and the media contents and tool calls of the content. -/
structure Parts (J : Type) where
  messages : List (Message J)
  mediaContents : List MediaContent
  toolCalls : List (ToolCallRequest J)

def convertPart (acc : Parts J) (part : GeminiPart J) : Parts J :=
  match part.kind with
  | .text text => { acc with mediaContents := acc.mediaContents ++ [.ofText text] }
  | .media content => { acc with mediaContents := acc.mediaContents ++ [content] }
  | .call call =>
      { acc with
        toolCalls := acc.toolCalls ++ [toolCall toJSONString (acc.toolCalls.length + 1) call] }
  | .response response =>
      { acc with
        messages := acc.messages ++ [toolMessage toJSONString acc.toolCalls.length response] }
  | .other => acc

/-- The message of a content. -/
def contentMessage (role : String) (mediaContents : List MediaContent)
    (toolCalls : List (ToolCallRequest J)) : Message J :=
  let message := Message.ofRole (convertGeminiRoleToOpenAI role)
  if toolCalls ≠ [] then { message with toolCalls := some toolCalls }
  else
    match mediaContents with
    | [] => message
    | [content] =>
        if content.type = "text" then { message with content := .text content.text }
        else { message with content := .media [content] }
    | contents => { message with content := .media contents }

/-- One round of the loop over the contents. -/
def convertContent (messages : List (Message J)) (content : GeminiChatContent J) :
    List (Message J) :=
  let acc := content.parts.foldl (convertPart toJSONString) ⟨messages, [], []⟩
  let message := contentMessage content.role acc.mediaContents acc.toolCalls
  if message.content.parse ≠ [] ∨ message.toolCalls ≠ none then acc.messages ++ [message]
  else acc.messages

/-- `extractTextFromGeminiParts`. -/
def extractTextFromGeminiParts (parts : List (GeminiPart J)) : String :=
  "\n".intercalate ((parts.filter (·.text ≠ "")).map GeminiPart.text)

def systemMessage (system : GeminiChatContent J) : Message J :=
  { Message.ofRole "system" with content := .text (extractTextFromGeminiParts system.parts) }

/-- The tools of the request; declarations that cannot be decoded are left out. -/
def convertTools (tools : List (GeminiChatTool J)) : List (ToolCallRequest J) :=
  tools.flatMap fun tool =>
    match tool.functionDeclarations with
    | some (.ok functions) =>
        functions.map fun f => ⟨"", "function", ⟨f.description, f.name, f.parameters, ""⟩⟩
    | _ => []

/-- The stop sequences: `none` in the outer place is a panic. -/
def convertStop (stopSequences : Slice String) : Option (Option (List String)) :=
  if 0 < stopSequences.items.length then (stopSequences.upTo 4).map some else some none

/-- `GeminiToOpenAIRequest`; `none` is a panic. -/
def geminiToOpenAIRequest (info : RelayInfo) (geminiRequest : GeminiChatRequest J) :
    Option (GeneralOpenAIRequest J) := do
  let messages := geminiRequest.contents.foldl (convertContent toJSONString) []
  let config := geminiRequest.generationConfig
  let stop ← convertStop config.stopSequences
  let messages :=
    match geminiRequest.systemInstructions with
    | some system => systemMessage system :: messages
    | none => messages
  pure
    { model := info.upstreamModelName
      stream := some info.isStream
      messages := messages
      temperature := config.temperature
      topP := config.topP.filter (0 < ·)
      topK := (config.topK.filter (0 < ·)).map Int.floor
      maxTokens := config.maxOutputTokens.filter (0 < ·)
      stop := stop
      n := config.candidateCount.filter (0 < ·)
      tools := convertTools geminiRequest.tools }

end messages

/-! ### The loop over the parts -/

section parts

variable {J : Type}

/-- The number of calls among parts. -/
def callCount : List (GeminiPart J) → ℕ
  | [] => 0
  | part :: parts => match part.kind with | .call _ => callCount parts + 1 | _ => callCount parts

/-- The texts of parts. -/
def partTexts : List (GeminiPart J) → List String
  | [] => []
  | part :: parts =>
      match part.kind with | .text text => text :: partTexts parts | _ => partTexts parts

/-- For every response among parts the number of calls before it, where `n` came before all. -/
def callsBefore (n : ℕ) : List (GeminiPart J) → List ℕ
  | [] => []
  | part :: parts =>
      match part.kind with
      | .call _ => callsBefore (n + 1) parts
      | .response _ => n :: callsBefore n parts
      | _ => callsBefore n parts

/-- What the loop over the parts of a content adds to its state. -/
structure Adds (acc acc' : Parts J) (parts : List (GeminiPart J)) : Prop where
  messages : ∃ tools : List (Message J), acc'.messages = acc.messages ++ tools ∧
    (∀ m ∈ tools, m.role = "tool" ∧ m.toolCalls = none) ∧
      tools.map Message.toolCallId = (callsBefore acc.toolCalls.length parts).map callId
  mediaContents : ∃ contents, acc'.mediaContents = acc.mediaContents ++ contents ∧
    (contents.filter (·.type = "text")).map MediaContent.text = partTexts parts
  toolCalls : ∃ calls, acc'.toolCalls = acc.toolCalls ++ calls ∧
    calls.map ToolCallRequest.id =
      (List.range' (acc.toolCalls.length + 1) (callCount parts)).map callId

theorem GeminiPart.kind_media {part : GeminiPart J} {content : MediaContent}
    (h : part.kind = .media content) : content.type ≠ "text" := by
  unfold GeminiPart.kind at h
  split at h
  · cases h
  · split at h
    · cases h
      exact (by decide : "image_url" ≠ "text")
    · split at h
      · cases h
        exact (by decide : "image_url" ≠ "text")
      · split at h
        · cases h
        · split at h <;> cases h

theorem foldl_convertPart (toJSONString : J → String) (parts : List (GeminiPart J))
    (acc : Parts J) :
    Adds acc (parts.foldl (convertPart toJSONString) acc) parts := by
  induction parts generalizing acc with
  | nil =>
      exact ⟨⟨[], by simp, by simp, rfl⟩, ⟨[], by simp, rfl⟩, ⟨[], by simp, rfl⟩⟩
  | cons part parts ih =>
      rw [List.foldl_cons]
      have hrest := ih (convertPart toJSONString acc part)
      generalize parts.foldl (convertPart toJSONString) (convertPart toJSONString acc part) = acc'
        at hrest
      obtain ⟨⟨tools, htools, hroles, hids⟩, ⟨contents, hcontents, htexts⟩, calls, hcalls,
        hcallIds⟩ := hrest
      unfold convertPart at htools hids hcontents hcalls hcallIds
      cases hkind : part.kind with
      | text text =>
          simp only [hkind] at htools hids hcontents hcalls hcallIds
          refine ⟨⟨tools, htools, hroles, ?_⟩, ⟨.ofText text :: contents, ?_, ?_⟩, calls,
            hcalls, ?_⟩
          · simpa only [callsBefore, hkind] using hids
          · rw [hcontents, List.append_assoc]
            rfl
          · simp only [partTexts, hkind]
            simp [MediaContent.ofText, htexts]
          · simpa only [callCount, hkind] using hcallIds
      | media content =>
          simp only [hkind] at htools hids hcontents hcalls hcallIds
          refine ⟨⟨tools, htools, hroles, ?_⟩, ⟨content :: contents, ?_, ?_⟩, calls, hcalls, ?_⟩
          · simpa only [callsBefore, hkind] using hids
          · rw [hcontents, List.append_assoc]
            rfl
          · simp only [partTexts, hkind]
            simp [GeminiPart.kind_media hkind, htexts]
          · simpa only [callCount, hkind] using hcallIds
      | call call =>
          simp only [hkind] at htools hids hcontents hcalls hcallIds
          rw [List.length_append, List.length_singleton] at hids hcallIds
          refine ⟨⟨tools, htools, hroles, ?_⟩, ⟨contents, hcontents, ?_⟩,
            toolCall toJSONString (acc.toolCalls.length + 1) call :: calls, ?_, ?_⟩
          · simpa only [callsBefore, hkind] using hids
          · simpa only [partTexts, hkind] using htexts
          · rw [hcalls, List.append_assoc]
            rfl
          · simp only [callCount, hkind]
            rw [List.map_cons, hcallIds, List.range'_succ, List.map_cons]
            rfl
      | response response =>
          simp only [hkind] at htools hids hcontents hcalls hcallIds
          refine ⟨⟨toolMessage toJSONString acc.toolCalls.length response :: tools, ?_, ?_, ?_⟩,
            ⟨contents, hcontents, ?_⟩, calls, hcalls, ?_⟩
          · rw [htools, List.append_assoc]
            rfl
          · intro m hm
            rcases List.mem_cons.mp hm with rfl | hm
            · exact ⟨rfl, rfl⟩
            · exact hroles m hm
          · simp only [callsBefore, hkind]
            rw [List.map_cons, List.map_cons, hids]
            rfl
          · simpa only [partTexts, hkind] using htexts
          · simpa only [callCount, hkind] using hcallIds
      | other =>
          simp only [hkind] at htools hids hcontents hcalls hcallIds
          refine ⟨⟨tools, htools, hroles, ?_⟩, ⟨contents, hcontents, ?_⟩, calls, hcalls, ?_⟩
          · simpa only [callsBefore, hkind] using hids
          · simpa only [partTexts, hkind] using htexts
          · simpa only [callCount, hkind] using hcallIds

end parts

/-! ### Readings of messages and contents -/

section readings

variable {J : Type}

/-- The identifiers of the tool calls of messages. -/
def callIds (messages : List (Message J)) : List String :=
  messages.flatMap fun m => m.calls.map ToolCallRequest.id

/-- For every tool message the number of calls in the messages before it, where `n` came before all,
and its identifier. -/
def results (n : ℕ) : List (Message J) → List (ℕ × String)
  | [] => []
  | m :: ms =>
    (if m.role = "tool" then [(n, m.toolCallId)] else []) ++ results (n + m.calls.length) ms

/-- The texts of the messages that are no tool messages. -/
def sentTexts (messages : List (Message J)) : List String :=
  messages.flatMap fun m => if m.role = "tool" then [] else m.content.texts

/-- The numbers of the calls of contents, each within its content. -/
def callNumbers (contents : List (GeminiChatContent J)) : List ℕ :=
  contents.flatMap fun c => List.range' 1 (callCount c.parts)

/-- For every response the number of calls in the contents before it, where `n` came before all, and
the number of calls before it in its own content. -/
def responseNumbers (n : ℕ) : List (GeminiChatContent J) → List (ℕ × ℕ)
  | [] => []
  | c :: cs => (callsBefore 0 c.parts).map (n, ·) ++ responseNumbers (n + callCount c.parts) cs

theorem callIds_append (l l' : List (Message J)) : callIds (l ++ l') = callIds l ++ callIds l' :=
  List.flatMap_append

theorem sentTexts_append (l l' : List (Message J)) :
    sentTexts (l ++ l') = sentTexts l ++ sentTexts l' := List.flatMap_append

theorem results_append (n : ℕ) (l l' : List (Message J)) :
    results n (l ++ l') = results n l ++ results (n + (callIds l).length) l' := by
  induction l generalizing n with
  | nil => rfl
  | cons m l ih =>
      have hlength : (callIds (m :: l)).length = m.calls.length + (callIds l).length := by
        simp [callIds]
      rw [List.cons_append, results, results, ih, hlength, List.append_assoc, Nat.add_assoc]

/-- Tool messages carry no calls and no texts. -/
theorem tools_readings {tools : List (Message J)}
    (h : ∀ m ∈ tools, m.role = "tool" ∧ m.toolCalls = none) :
    callIds tools = [] ∧ sentTexts tools = [] ∧
      ∀ n, results n tools = (tools.map Message.toolCallId).map (n, ·) := by
  induction tools with
  | nil => exact ⟨rfl, rfl, fun _ => rfl⟩
  | cons m tools ih =>
      obtain ⟨hrole, hnone⟩ := h m List.mem_cons_self
      obtain ⟨hids, htexts, hresults⟩ := ih fun m hm => h m (List.mem_cons_of_mem _ hm)
      have hcalls : m.calls = [] := by
        unfold Message.calls
        rw [hnone]
        rfl
      refine ⟨?_, ?_, fun n => ?_⟩
      · show m.calls.map ToolCallRequest.id ++ callIds tools = []
        rw [hcalls, hids]
        rfl
      · show (if m.role = "tool" then [] else m.content.texts) ++ sentTexts tools = []
        rw [if_pos hrole, htexts]
        rfl
      · rw [results, if_pos hrole, hcalls, List.length_nil, Nat.add_zero, hresults]
        rfl

theorem convertGeminiRole_ne_tool (role : String) : convertGeminiRoleToOpenAI role ≠ "tool" := by
  unfold convertGeminiRoleToOpenAI
  repeat' split
  all_goals decide

/-- The message of a content. -/
theorem contentMessage_readings (role : String) (contents : List MediaContent)
    (calls : List (ToolCallRequest J)) :
    (contentMessage role contents calls).role ≠ "tool" ∧
      (contentMessage role contents calls).calls = calls ∧
        (contentMessage role contents calls).content.texts =
          if calls = [] then (contents.filter (·.type = "text")).map MediaContent.text else [] := by
  unfold contentMessage
  dsimp only
  by_cases hcalls : calls = []
  · rw [if_neg (not_not.mpr hcalls), if_pos hcalls, hcalls]
    split
    · exact ⟨convertGeminiRole_ne_tool role, rfl, rfl⟩
    next content =>
      split
      next htext =>
        refine ⟨convertGeminiRole_ne_tool role, rfl, ?_⟩
        simp [Content.texts, Content.parse, MediaContent.ofText, htext]
      · exact ⟨convertGeminiRole_ne_tool role, rfl, rfl⟩
    · exact ⟨convertGeminiRole_ne_tool role, rfl, rfl⟩
  · rw [if_pos hcalls, if_neg hcalls]
    exact ⟨convertGeminiRole_ne_tool role, rfl, rfl⟩

/-- What a content contributes. -/
structure Sends (content : GeminiChatContent J) (sent : List (Message J)) : Prop where
  callIds : callIds sent = (List.range' 1 (callCount content.parts)).map callId
  results : ∀ n, results n sent = (callsBefore 0 content.parts).map fun m => (n, callId m)
  texts : sentTexts sent = if callCount content.parts = 0 then partTexts content.parts else []

/-- A message that is sent unless it is empty. -/
theorem own_readings {m : Message J} (hrole : m.role ≠ "tool") :
    let own := if m.content.parse ≠ [] ∨ m.toolCalls ≠ none then [m] else []
    callIds own = m.calls.map ToolCallRequest.id ∧ sentTexts own = m.content.texts ∧
      ∀ n, results n own = [] := by
  intro own
  by_cases hsent : m.content.parse ≠ [] ∨ m.toolCalls ≠ none
  · have hown : own = [m] := if_pos hsent
    rw [hown]
    refine ⟨List.append_nil _, ?_, fun n => ?_⟩
    · show (if m.role = "tool" then [] else m.content.texts) ++ [] = m.content.texts
      rw [if_neg hrole, List.append_nil]
    · rw [results, if_neg hrole]
      rfl
  · have hown : own = [] := if_neg hsent
    push Not at hsent
    rw [hown]
    refine ⟨?_, ?_, fun n => rfl⟩
    · unfold Message.calls
      rw [hsent.2]
      rfl
    · unfold Content.texts
      rw [hsent.1]
      rfl

theorem convertContent_sends (toJSONString : J → String) (messages : List (Message J))
    (content : GeminiChatContent J) :
    ∃ sent, convertContent toJSONString messages content = messages ++ sent ∧
      Sends content sent := by
  unfold convertContent
  have hadds : Adds ⟨messages, [], []⟩ _ content.parts :=
    foldl_convertPart toJSONString content.parts ⟨messages, [], []⟩
  generalize content.parts.foldl (convertPart toJSONString) ⟨messages, [], []⟩ = acc at hadds
  obtain ⟨⟨tools, htools, hroles, hids⟩, ⟨contents, hcontents, htexts⟩, calls, hcalls, hcallIds⟩ :=
    hadds
  dsimp only at htools hids hcontents hcalls hcallIds ⊢
  rw [List.nil_append] at hcontents hcalls
  rw [List.length_nil, Nat.zero_add] at hcallIds
  rw [hcontents, hcalls]
  obtain ⟨hnone, hnotexts, hresults⟩ := tools_readings hroles
  obtain ⟨hrole, hown, hownTexts⟩ := contentMessage_readings content.role contents calls
  have hzero : calls = [] ↔ callCount content.parts = 0 := by
    have hlength := congrArg List.length hcallIds
    simp only [List.length_map, List.length_range'] at hlength
    rw [← hlength, List.length_eq_zero_iff]
  generalize contentMessage content.role contents calls = own at hrole hown hownTexts
  obtain ⟨hownIds, hownSent, hownResults⟩ := own_readings hrole
  refine ⟨tools ++ if own.content.parse ≠ [] ∨ own.toolCalls ≠ none then [own] else [], ?_, ?_⟩
  · rw [htools]
    split
    · rw [List.append_assoc]
    · rw [List.append_nil]
  · constructor
    · rw [callIds_append, hnone, hownIds, hown, hcallIds, List.nil_append]
    · intro n
      rw [results_append, hownResults, hresults, hids, List.append_nil, List.map_map]
      rfl
    · rw [sentTexts_append, hnotexts, hownSent, hownTexts, htexts, List.nil_append]
      exact if_congr hzero rfl rfl

/-- What the loop over the contents adds. -/
theorem foldl_convertContent (toJSONString : J → String) (contents : List (GeminiChatContent J))
    (messages : List (Message J)) :
    ∃ sent, contents.foldl (convertContent toJSONString) messages = messages ++ sent ∧
      callIds sent = (callNumbers contents).map callId ∧
        (∀ n, results n sent = (responseNumbers n contents).map fun p => (p.1, callId p.2)) ∧
          sentTexts sent = contents.flatMap fun c =>
            if callCount c.parts = 0 then partTexts c.parts else [] := by
  induction contents generalizing messages with
  | nil => exact ⟨[], (List.append_nil _).symm, rfl, fun _ => rfl, rfl⟩
  | cons content contents ih =>
      obtain ⟨first, hfirst, hsends⟩ := convertContent_sends toJSONString messages content
      obtain ⟨rest, hrest, hids, hresults, htexts⟩ := ih (messages ++ first)
      refine ⟨first ++ rest, ?_, ?_, fun n => ?_, ?_⟩
      · rw [List.foldl_cons, hfirst, hrest, List.append_assoc]
      · rw [callIds_append, hsends.callIds, hids]
        unfold callNumbers
        rw [List.flatMap_cons, List.map_append]
      · have hlength : (callIds first).length = callCount content.parts := by
          rw [hsends.callIds, List.length_map, List.length_range']
        rw [results_append, hsends.results, hlength, hresults, responseNumbers, List.map_append,
          List.map_map]
        rfl
      · rw [sentTexts_append, hsends.texts, htexts, List.flatMap_cons]

end readings

/-! ### Calls and their answers -/

inductive Event where
  | call (name : String)
  | response (name : String)
  deriving DecidableEq

def GeminiPart.event {J : Type} (part : GeminiPart J) : Option Event :=
  match part.kind with
  | .call call => some (.call call.functionName)
  | .response response => some (.response response.name)
  | _ => none

/-- The calls and responses of contents, in their order. -/
def events {J : Type} (contents : List (GeminiChatContent J)) : List Event :=
  contents.flatMap fun c => c.parts.filterMap GeminiPart.event

/-- The number of the call that each response answers, with the number of the response: the first
call of its name that is still pending; `none` where a response answers no earlier call. -/
def answers (pending : List (ℕ × String)) (calls responses : ℕ) :
    List Event → Option (List (ℕ × ℕ))
  | [] => some []
  | .call name :: es => answers (pending ++ [(calls, name)]) (calls + 1) responses es
  | .response name :: es =>
      match pending.find? (·.2 = name) with
      | none => none
      | some call =>
          (answers (pending.erase call) calls (responses + 1) es).map ((call.1, responses) :: ·)

section main

variable {J : Type}

/-- Each response has a tool message with the identifier of its call, after the message of the
call. -/
def Paired (messages : List (Message J)) (pairs : List (ℕ × ℕ)) : Prop :=
  ∀ p ∈ pairs, ∃ id n, (callIds messages)[p.1]? = some id ∧
    (results 0 messages)[p.2]? = some (n, id) ∧ p.1 < n

/-- Each response stands in a later content than its call, behind as many calls of its own content
as the number that the call has in its content. -/
def InPlace (contents : List (GeminiChatContent J)) (pairs : List (ℕ × ℕ)) : Prop :=
  ∀ p ∈ pairs, ∃ i n, (callNumbers contents)[p.1]? = some i ∧
    (responseNumbers 0 contents)[p.2]? = some (n, i) ∧ p.1 < n

/-- The texts of a request: the system instructions, as they are joined, and the text parts. -/
def requestTexts (r : GeminiChatRequest J) : List String :=
  (match r.systemInstructions with
    | some system => [extractTextFromGeminiParts system.parts]
    | none => []) ++ r.contents.flatMap fun c => partTexts c.parts

theorem callId_injective {m n : ℕ} (h : callId m = callId n) : m = n := by
  have hlist := congrArg String.toList h
  unfold callId at hlist
  rw [String.toList_append, String.toList_append] at hlist
  exact Decimal.nat_injective (String.toList_inj.mp (List.append_cancel_left hlist))

/-- The numbers of the calls are distinct exactly if one content at most has calls. -/
theorem nodup_callNumbers_iff (contents : List (GeminiChatContent J)) :
    (callNumbers contents).Nodup ↔ (contents.filter (0 < callCount ·.parts)).length ≤ 1 := by
  induction contents with
  | nil => simp [callNumbers]
  | cons c cs ih =>
      have hcons : callNumbers (c :: cs) = List.range' 1 (callCount c.parts) ++ callNumbers cs :=
        List.flatMap_cons
      have hone : 1 ∈ callNumbers cs ↔ ∃ d ∈ cs, 0 < callCount d.parts := by
        simp [callNumbers, List.mem_range'_1]
      have hdisjoint : 0 < callCount c.parts → (List.Disjoint (List.range' 1 (callCount c.parts))
          (callNumbers cs) ↔ ∀ d ∈ cs, ¬ 0 < callCount d.parts) := by
        intro hpos
        constructor
        · intro hd d hmem hcalls
          exact hd (List.mem_range'_1.mpr ⟨le_refl 1, by omega⟩) (hone.mpr ⟨d, hmem, hcalls⟩)
        · intro hnone n _ hn
          obtain ⟨d, hmem, hrange⟩ := List.mem_flatMap.mp hn
          have hcount := List.mem_range'_1.mp hrange
          exact hnone d hmem (by omega)
      rw [hcons, List.nodup_append', ih]
      by_cases hpos : 0 < callCount c.parts
      · rw [List.filter_cons_of_pos (by simpa using hpos), List.length_cons, hdisjoint hpos]
        have hempty : (cs.filter (0 < callCount ·.parts)).length = 0 ↔
            ∀ d ∈ cs, ¬ 0 < callCount d.parts := by
          simp [List.length_eq_zero_iff, List.filter_eq_nil_iff]
        rw [← hempty]
        constructor
        · intro ⟨_, _, hzero⟩
          omega
        · intro hle
          exact ⟨List.nodup_range', by omega, by omega⟩
      · have hzero : callCount c.parts = 0 := by omega
        rw [List.filter_cons_of_neg (by simpa using hpos), hzero]
        simp

/-- Lists of which one drops parts of the other, part by part. -/
theorem sublist_flatMap_iff {α β : Type} {f g : α → List β} {l : List α}
    (h : ∀ a ∈ l, g a = f a ∨ g a = []) :
    (l.flatMap f).Sublist (l.flatMap g) ↔ ∀ a ∈ l, g a = f a := by
  have hle : ∀ a ∈ l, (g a).length ≤ (f a).length := by
    intro a ha
    rcases h a ha with heq | hnil
    · rw [heq]
    · rw [hnil]
      exact Nat.zero_le _
  constructor
  · intro hsub a ha
    rcases h a ha with heq | hnil
    · exact heq
    · by_contra hne
      have hpos : 0 < (f a).length := by
        rw [List.length_pos_iff]
        intro hf
        exact hne (hnil.trans hf.symm)
      have hlt : (l.flatMap g).length < (l.flatMap f).length := by
        rw [List.length_flatMap, List.length_flatMap]
        refine List.sum_lt_sum _ _ hle ⟨a, ha, ?_⟩
        rw [hnil]
        exact hpos
      have := hsub.length_le
      omega
  · intro hall
    rw [List.flatMap_congr hall]

/-- What a conversion that does not panic returns. -/
theorem geminiToOpenAIRequest_messages {toJSONString : J → String} {info : RelayInfo}
    {req : GeminiChatRequest J} {out : GeneralOpenAIRequest J}
    (h : geminiToOpenAIRequest toJSONString info req = some out) :
    convertStop req.generationConfig.stopSequences = some out.stop ∧
      callIds out.messages = (callNumbers req.contents).map callId ∧
        results 0 out.messages = (responseNumbers 0 req.contents).map (fun p => (p.1, callId p.2)) ∧
          sentTexts out.messages =
            (match req.systemInstructions with
              | some system => [extractTextFromGeminiParts system.parts]
              | none => []) ++ req.contents.flatMap fun c =>
                if callCount c.parts = 0 then partTexts c.parts else [] := by
  unfold geminiToOpenAIRequest at h
  obtain ⟨stop, hstop, hout⟩ := Option.bind_eq_some_iff.mp h
  obtain ⟨sent, hsent, hids, hresults, htexts⟩ := foldl_convertContent toJSONString req.contents []
  rw [List.nil_append] at hsent
  rw [Option.pure_def, Option.some_inj] at hout
  subst hout
  refine ⟨hstop, ?_⟩
  dsimp only
  rw [hsent]
  cases req.systemInstructions with
  | none => exact ⟨hids, hresults 0, htexts⟩
  | some system =>
      refine ⟨hids, ?_, ?_⟩
      · have hrole : ¬ (systemMessage system).role = "tool" := by
          exact (by decide : ¬ "system" = "tool")
        rw [results, if_neg hrole, List.nil_append]
        exact hresults 0
      · rw [← htexts]
        rfl

theorem geminiToOpenAIRequest_of_stop {toJSONString : J → String} {info : RelayInfo}
    {req : GeminiChatRequest J} {stop : Option (List String)}
    (h : convertStop req.generationConfig.stopSequences = some stop) :
    ∃ out, geminiToOpenAIRequest toJSONString info req = some out ∧ out.stop = stop := by
  unfold geminiToOpenAIRequest
  dsimp only
  rw [h]
  exact ⟨_, rfl, rfl⟩

/-- The first four of `n` stop sequences, whatever stands behind them in their array. -/
theorem convertStop_iff (s : Slice String) :
    convertStop s = some (if s.items = [] then none else some (s.items.take 4)) ↔
      s.items.length = 0 ∨ 4 ≤ s.items.length := by
  unfold convertStop Slice.upTo
  by_cases hzero : s.items.length = 0
  · have hnil : s.items = [] := List.length_eq_zero_iff.mp hzero
    simp [hnil]
  · have hne : s.items ≠ [] := by
      intro hnil
      exact hzero (List.length_eq_zero_iff.mpr hnil)
    rw [if_pos (Nat.pos_of_ne_zero hzero), if_neg hne]
    by_cases hfour : 4 ≤ s.items.length
    · have hcap : 4 ≤ (s.items ++ s.spare).length := by
        rw [List.length_append]
        omega
      rw [if_pos hcap, List.take_append_of_le_length hfour]
      simp [hfour]
    · have hnot : ¬ (s.items.length = 0 ∨ 4 ≤ s.items.length) := by omega
      refine iff_of_false (fun h => ?_) hnot
      split at h
      next hcap =>
        have hlist : (s.items ++ s.spare).take 4 = s.items.take 4 := by simpa using h
        have hlength := congrArg List.length hlist
        rw [List.length_take, List.length_take] at hlength
        omega
      · simp at h

/-- The pairing of the messages is that of the contents. -/
theorem paired_iff {messages : List (Message J)} {contents : List (GeminiChatContent J)}
    (hids : callIds messages = (callNumbers contents).map callId)
    (hresults : results 0 messages = (responseNumbers 0 contents).map (fun p => (p.1, callId p.2)))
    (pairs : List (ℕ × ℕ)) : Paired messages pairs ↔ InPlace contents pairs := by
  unfold Paired InPlace
  rw [hids, hresults]
  refine forall₂_congr fun p _ => ⟨?_, ?_⟩
  · rintro ⟨id, n, hcall, hresult, hlt⟩
    rw [List.getElem?_map, Option.map_eq_some_iff] at hcall hresult
    obtain ⟨i, hi, hid⟩ := hcall
    obtain ⟨⟨m, j⟩, hj, heq⟩ := hresult
    obtain ⟨hm, hidj⟩ := Prod.ext_iff.mp heq
    have hij : i = j := callId_injective (hid.trans hidj.symm)
    dsimp only at hm
    rw [hij] at hi
    rw [hm] at hj
    exact ⟨j, n, hi, hj, hlt⟩
  · rintro ⟨i, n, hcall, hresponse, hlt⟩
    refine ⟨callId i, n, ?_, ?_, hlt⟩
    · rw [List.getElem?_map, hcall]
      rfl
    · rw [List.getElem?_map, hresponse]
      rfl

/-- **Main.**  The conversion returns the first four stop sequences exactly if there are none or at
least four; and where it returns, the identifiers of the calls are distinct exactly if one content
at most has calls, every response has its tool message, with the identifier of its call and after
the message of the call, exactly if it stands in a later content behind as many calls of its own as
the number of the call, and all texts are sent in their order exactly if no content has both texts
and calls. -/
theorem gemini_keeps_iff (toJSONString : J → String) (info : RelayInfo)
    (req : GeminiChatRequest J) :
    ((∃ out, geminiToOpenAIRequest toJSONString info req = some out ∧
        out.stop = if req.generationConfig.stopSequences.items = [] then none
          else some (req.generationConfig.stopSequences.items.take 4)) ↔
      req.generationConfig.stopSequences.items.length = 0 ∨
        4 ≤ req.generationConfig.stopSequences.items.length) ∧
    ∀ out, geminiToOpenAIRequest toJSONString info req = some out →
      ((callIds out.messages).Nodup ↔
        (req.contents.filter (0 < callCount ·.parts)).length ≤ 1) ∧
      (∀ pairs, answers [] 0 0 (events req.contents) = some pairs →
        (Paired out.messages pairs ↔ InPlace req.contents pairs)) ∧
      ((requestTexts req).Sublist (sentTexts out.messages) ↔
        ∀ c ∈ req.contents, partTexts c.parts = [] ∨ callCount c.parts = 0) := by
  refine ⟨?_, fun out h => ?_⟩
  · rw [← convertStop_iff]
    constructor
    · rintro ⟨out, h, hstop⟩
      rw [(geminiToOpenAIRequest_messages h).1, hstop]
    · exact geminiToOpenAIRequest_of_stop
  · obtain ⟨-, hids, hresults, htexts⟩ := geminiToOpenAIRequest_messages h
    refine ⟨?_, fun pairs _ => paired_iff hids hresults pairs, ?_⟩
    · rw [hids, List.nodup_map_iff fun _ _ => callId_injective, nodup_callNumbers_iff]
    · rw [htexts, requestTexts, List.append_sublist_append_left, sublist_flatMap_iff]
      · refine forall₂_congr fun c _ => ?_
        by_cases hzero : callCount c.parts = 0
        · exact iff_of_true (if_pos hzero) (.inr hzero)
        · rw [if_neg hzero, or_iff_left hzero]
          exact eq_comm
      · intro c _
        split
        · exact .inl rfl
        · exact .inr rfl

end main

/-! ### Concrete requests -/

def callPart (name : String) : GeminiPart Unit := ⟨"", none, none, some ⟨name, ()⟩, none⟩

def responsePart (name : String) : GeminiPart Unit := ⟨"", none, none, none, some ⟨name, ()⟩⟩

def textPart (text : String) : GeminiPart Unit := ⟨text, none, none, none, none⟩

/-- A request of contents and stop sequences, in an array of their length. -/
def request (contents : List (GeminiChatContent Unit)) (stop : List String) :
    GeminiChatRequest Unit :=
  ⟨contents, ⟨none, none, none, none, none, ⟨stop, []⟩⟩, [], none⟩

/-- A response that stands behind another call. -/
def answered : GeminiChatRequest Unit :=
  request [⟨"model", [callPart "f"]⟩, ⟨"user", [callPart "g", responsePart "f"]⟩] []

/-- Two contents with calls, one of them with a text, and the response to the first call. -/
def conversation : GeminiChatRequest Unit :=
  request [⟨"model", [textPart "a", callPart "f"]⟩, ⟨"user", [responsePart "f"]⟩,
    ⟨"model", [callPart "g"]⟩] []

/-- The answered call is paired, its identifier occurs twice. -/
theorem gemini_keeps_iff_answered :
    ∃ out, geminiToOpenAIRequest (fun _ => "") ⟨"m", false⟩ answered = some out ∧
      Paired out.messages [(0, 0)] ∧ ¬ (callIds out.messages).Nodup := by
  have hiff := gemini_keeps_iff (fun _ => "") ⟨"m", false⟩ answered
  obtain ⟨out, hout, -⟩ := hiff.1.mpr (.inl rfl)
  obtain ⟨hids, hpaired, -⟩ := hiff.2 out hout
  refine ⟨out, hout, (hpaired [(0, 0)] (by decide)).mpr ?_, fun h => ?_⟩
  · intro p hp
    rw [List.mem_singleton.mp hp]
    exact ⟨1, 1, rfl, rfl, Nat.one_pos⟩
  · exact absurd (hids.mp h) (by decide)

/-- One stop sequence in an array of its length panics; and in a conversation the identifier of a
call occurs twice, the response has another one and the text is lost. -/
theorem gemini_loses :
    geminiToOpenAIRequest (fun _ : Unit => "") ⟨"m", false⟩ (request [] ["s"]) = none ∧
      ∃ out, geminiToOpenAIRequest (fun _ => "") ⟨"m", false⟩ conversation = some out ∧
        ¬ (callIds out.messages).Nodup ∧
          (answers [] 0 0 (events conversation.contents) = some [(0, 0)] ∧
            ¬ Paired out.messages [(0, 0)]) ∧
            ¬ (requestTexts conversation).Sublist (sentTexts out.messages) := by
  obtain ⟨out, hout, -⟩ : ∃ out, geminiToOpenAIRequest (fun _ => "") ⟨"m", false⟩ conversation =
      some out ∧ out.stop = none := geminiToOpenAIRequest_of_stop rfl
  obtain ⟨-, hids, hresults, htexts⟩ := geminiToOpenAIRequest_messages hout
  refine ⟨rfl, out, hout, ?_, ⟨by decide, ?_⟩, ?_⟩
  · rw [hids]
    exact (by decide +kernel : ¬ ((callNumbers conversation.contents).map callId).Nodup)
  · intro h
    obtain ⟨i, n, hcall, hresponse, -⟩ := (paired_iff hids hresults [(0, 0)]).mp h (0, 0) (by simp)
    obtain rfl : 1 = i := Option.some_inj.mp hcall
    have hsome : some (1, 0) = some (n, 1) := hresponse
    simp at hsome
  · rw [htexts]
    decide

end MaxApi.Convert.Gemini
