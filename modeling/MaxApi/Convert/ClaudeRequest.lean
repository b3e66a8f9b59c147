import MaxApi.Dto.ChatRequest

/-! # Conversions: messages of Claude requests

The system and the messages of `ClaudeToOpenAIRequest`.  A message of blocks becomes a tool message
for each of its results and one message for the rest; with calls, that one is sent without its texts
and images.  An image is always sent as the data of its source. -/

namespace MaxApi.Convert.FromClaude

open MaxApi.ChatRequest

/-! ### Requests -/

/-- A decoded value of any type: a string or something else. -/
inductive AnyValue (J : Type) where
  | string (s : String)
  | other (j : J)
  deriving DecidableEq

structure ClaudeMessageSource (J : Type) where
  mediaType : String
  data : AnyValue J
  url : String
  deriving DecidableEq

structure ClaudeMediaMessage (J : Type) where
  type : String
  text : Option String
  source : Option (ClaudeMessageSource J)
  cacheControl : Option String
  id : String
  name : String
  input : J
  content : AnyValue J
  toolUseId : String
  deriving DecidableEq

def ClaudeMediaMessage.getText {J : Type} (b : ClaudeMediaMessage J) : String := b.text.getD ""

/-- The content of a message: a string, or what parsing its blocks gives. -/
inductive MessageContent (J : Type) where
  | string (s : String)
  | parsed (blocks : Except String (List (ClaudeMediaMessage J)))

structure ClaudeMessage (J : Type) where
  role : String
  content : MessageContent J

/-- The system of a request; blocks that cannot be parsed are an empty list. -/
inductive System (J : Type) where
  | none
  | string (s : String)
  | blocks (systems : List (ClaudeMediaMessage J))

structure ClaudeRequest (J : Type) where
  system : System J
  messages : List (ClaudeMessage J)

/-- The printing functions of the host: `toJSONString`, the verb `%s` on a value that is no string,
and the JSON text of the media contents that are parsed from a value. -/
structure Host (J : Type) where
  toJSONString : J → String
  sprint : J → String
  mediaContents : J → String

/-- How a conversion ends early. -/
inductive Failure where
  | panic
  | error (text : String)
  deriving DecidableEq

/-! ### Conversion -/

section conversion

variable {J : Type} (host : Host J)

def AnyValue.sprint : AnyValue J → String
  | .string s => s
  | .other j => host.sprint j

def searchToolNameByToolCallId (request : ClaudeRequest J) (toolCallId : String) : String :=
  let blocks := request.messages.flatMap fun m =>
    match m.content with
    | .parsed (.ok blocks) => blocks
    | _ => []
  match blocks.find? (·.id = toolCallId) with
  | some block => block.name
  | none => ""

/-- The URL that is made from a source. -/
def imageData (source : ClaudeMessageSource J) : String :=
  "data:" ++ source.mediaType ++ ";base64," ++ source.data.sprint host

def textMedia (block : ClaudeMediaMessage J) : MediaContent :=
  ⟨"text", block.getText, none, block.cacheControl⟩

def imageMedia (source : ClaudeMessageSource J) : MediaContent :=
  ⟨"image_url", "", some ⟨imageData host source, "", ""⟩, none⟩

def toolCall (block : ClaudeMediaMessage J) : ToolCallRequest J :=
  ⟨block.id, "function", ⟨"", block.name, none, host.toJSONString block.input⟩⟩

def toolMessage (request : ClaudeRequest J) (block : ClaudeMediaMessage J) : Message J :=
  { Message.ofRole "tool" with
    name := some (if block.name = "" then searchToolNameByToolCallId request block.toolUseId
      else block.name)
    toolCallId := block.toolUseId
    content := .text (match block.content with
      | .string s => s
      | .other j => host.mediaContents j) }

/-- The messages so far, and the media contents and tool calls of the message. -/
structure Parts (J : Type) where
  messages : List (Message J)
  mediaMessages : List MediaContent
  toolCalls : List (ToolCallRequest J)

/-- One round of the loop over the blocks. -/
def convertBlock (request : ClaudeRequest J) (acc : Parts J) (block : ClaudeMediaMessage J) :
    Except Failure (Parts J) :=
  if block.type = "text" ∨ block.type = "input_text" then
    .ok { acc with mediaMessages := acc.mediaMessages ++ [textMedia block] }
  else if block.type = "image" then
    match block.source with
    | none => .error .panic
    | some source =>
        .ok { acc with mediaMessages := acc.mediaMessages ++ [imageMedia host source] }
  else if block.type = "tool_use" then
    .ok { acc with toolCalls := acc.toolCalls ++ [toolCall host block] }
  else if block.type = "tool_result" then
    .ok { acc with messages := acc.messages ++ [toolMessage host request block] }
  else .ok acc

/-- The message of the blocks of a role. -/
def blocksMessage (role : String) (mediaMessages : List MediaContent)
    (toolCalls : List (ToolCallRequest J)) : Message J :=
  { (Message.ofRole role : Message J) with
    toolCalls := if toolCalls ≠ [] then some toolCalls else none
    content := if mediaMessages ≠ [] ∧ toolCalls = [] then .media mediaMessages else .null }

/-- One round of the loop over the messages. -/
def convertMessage (request : ClaudeRequest J) (messages : List (Message J))
    (claudeMessage : ClaudeMessage J) : Except Failure (List (Message J)) := do
  let (messages, message) ←
    match claudeMessage.content with
    | .string s => pure (messages, { Message.ofRole claudeMessage.role with content := .text s })
    | .parsed (.error text) => throw (.error text)
    | .parsed (.ok blocks) => do
        let acc ← blocks.foldlM (convertBlock host request) ⟨messages, [], []⟩
        pure (acc.messages, blocksMessage claudeMessage.role acc.mediaMessages acc.toolCalls)
  pure (if message.content.parse ≠ [] ∨ message.toolCalls ≠ none then messages ++ [message]
    else messages)

/-- The message of the system; the media contents are kept apart for Claude at OpenRouter. -/
def systemMessages (isOpenRouterClaude : Bool) : System J → List (Message J)
  | .none => []
  | .string s => if s ≠ "" then [{ Message.ofRole "system" with content := .text s }] else []
  | .blocks systems =>
      if systems = [] then []
      else if isOpenRouterClaude then
        [{ Message.ofRole "system" with content := .media (systems.map textMedia) }]
      else
        [{ Message.ofRole "system" with
          content := .text (String.join (systems.map ClaudeMediaMessage.getText)) }]

/-- The messages of `ClaudeToOpenAIRequest`. -/
def convertMessages (isOpenRouterClaude : Bool) (request : ClaudeRequest J) :
    Except Failure (List (Message J)) :=
  request.messages.foldlM (convertMessage host request)
    (systemMessages isOpenRouterClaude request.system)

end conversion

/-! ### What a message becomes -/

section pieces

variable {J : Type} (host : Host J) (request : ClaudeRequest J)

/-- The media content of a block, if it has one. -/
def blockMedia (block : ClaudeMediaMessage J) : Option MediaContent :=
  if block.type = "text" ∨ block.type = "input_text" then some (textMedia block)
  else if block.type = "image" then block.source.map (imageMedia host) else none

/-- The blocks of an image that have no source. -/
def NoSource (block : ClaudeMediaMessage J) : Prop := block.type = "image" ∧ block.source = none

def toolUses (blocks : List (ClaudeMediaMessage J)) : List (ClaudeMediaMessage J) :=
  blocks.filter (·.type = "tool_use")

def toolResults (blocks : List (ClaudeMediaMessage J)) : List (ClaudeMediaMessage J) :=
  blocks.filter (·.type = "tool_result")

/-- What one round of the loop over the blocks does. -/
theorem convertBlock_eq (block : ClaudeMediaMessage J) (acc : Parts J)
    (h : ¬ NoSource block) :
    convertBlock host request acc block =
      .ok ⟨acc.messages ++ (toolResults [block]).map (toolMessage host request),
        acc.mediaMessages ++ [block].filterMap (blockMedia host),
        acc.toolCalls ++ (toolUses [block]).map (toolCall host)⟩ := by
  unfold convertBlock toolResults toolUses
  by_cases htext : block.type = "text" ∨ block.type = "input_text"
  · have huse : ¬ block.type = "tool_use" := by rcases htext with ht | ht <;> simp [ht]
    have hresult : ¬ block.type = "tool_result" := by rcases htext with ht | ht <;> simp [ht]
    rw [if_pos htext]
    simp [blockMedia, htext, huse, hresult]
  rw [if_neg htext]
  by_cases himage : block.type = "image"
  · rw [if_pos himage]
    cases hsource : block.source with
    | none => exact absurd ⟨himage, hsource⟩ h
    | some source => simp [blockMedia, himage, hsource]
  rw [if_neg himage]
  by_cases huse : block.type = "tool_use"
  · rw [if_pos huse]
    simp [blockMedia, huse]
  rw [if_neg huse]
  by_cases hresult : block.type = "tool_result"
  · rw [if_pos hresult]
    simp [blockMedia, hresult]
  · rw [if_neg hresult]
    simp [blockMedia, htext, himage, huse, hresult]

theorem convertBlock_panic {block : ClaudeMediaMessage J} (acc : Parts J) (h : NoSource block) :
    convertBlock host request acc block = .error .panic := by
  unfold convertBlock
  rw [if_neg (by rw [h.1]; decide), if_pos h.1, h.2]

/-- The loop over the blocks adds the media contents, the calls and the tool messages. -/
theorem foldlM_convertBlock {blocks : List (ClaudeMediaMessage J)}
    (h : ∀ block ∈ blocks, ¬ NoSource block) (acc : Parts J) :
    blocks.foldlM (convertBlock host request) acc =
      .ok ⟨acc.messages ++ (toolResults blocks).map (toolMessage host request),
        acc.mediaMessages ++ blocks.filterMap (blockMedia host),
        acc.toolCalls ++ (toolUses blocks).map (toolCall host)⟩ := by
  induction blocks generalizing acc with
  | nil => simp [toolResults, toolUses, pure, Except.pure]
  | cons block blocks ih =>
      have happ : block :: blocks = [block] ++ blocks := rfl
      rw [List.foldlM_cons, convertBlock_eq host request block acc (h block List.mem_cons_self)]
      show blocks.foldlM (convertBlock host request) _ = _
      rw [ih fun b hb => h b (List.mem_cons_of_mem _ hb), happ]
      unfold toolResults toolUses
      rw [List.filter_append, List.filter_append, List.filterMap_append, List.map_append,
        List.map_append, List.append_assoc, List.append_assoc, List.append_assoc]

theorem foldlM_convertBlock_panic {blocks : List (ClaudeMediaMessage J)}
    (h : ∃ block ∈ blocks, NoSource block) (acc : Parts J) :
    blocks.foldlM (convertBlock host request) acc = .error .panic := by
  induction blocks generalizing acc with
  | nil =>
      obtain ⟨block, hmem, -⟩ := h
      cases hmem
  | cons block blocks ih =>
      rw [List.foldlM_cons]
      by_cases hblock : NoSource block
      · rw [convertBlock_panic host request acc hblock]
        rfl
      · rw [convertBlock_eq host request block acc hblock]
        obtain ⟨b, hb, hnone⟩ := h
        rcases List.mem_cons.mp hb with rfl | hb
        · exact absurd hnone hblock
        · exact ih ⟨b, hb, hnone⟩ _

/-- The message that is made of the content itself, if it is not empty. -/
def ownMessage (m : ClaudeMessage J) : List (Message J) :=
  match m.content with
  | .string s => [{ (Message.ofRole m.role : Message J) with content := .text s }]
  | .parsed (.error _) => []
  | .parsed (.ok blocks) =>
      let message := blocksMessage m.role (blocks.filterMap (blockMedia host))
        ((toolUses blocks).map (toolCall host))
      if message.content.parse ≠ [] ∨ message.toolCalls ≠ none then [message] else []

/-- The blocks of a message, as far as they can be parsed. -/
def ClaudeMessage.blocks (m : ClaudeMessage J) : List (ClaudeMediaMessage J) :=
  match m.content with
  | .parsed (.ok blocks) => blocks
  | _ => []

def toolMessages (m : ClaudeMessage J) : List (Message J) :=
  (toolResults m.blocks).map (toolMessage host request)

/-- A message that can be parsed. -/
def Parses (m : ClaudeMessage J) : Prop := ∀ text, m.content ≠ .parsed (.error text)

theorem convertMessage_eq {m : ClaudeMessage J} (messages : List (Message J)) (hparses : Parses m)
    (h : ∀ block ∈ m.blocks, ¬ NoSource block) :
    convertMessage host request messages m =
      .ok (messages ++ (toolMessages host request m ++ ownMessage host m)) := by
  unfold convertMessage toolMessages ownMessage ClaudeMessage.blocks at *
  cases hcontent : m.content with
  | string s =>
      simp [toolResults, Content.parse, bind, Except.bind, pure, Except.pure]
  | parsed result =>
      cases result with
      | error text => exact absurd hcontent (hparses text)
      | ok blocks =>
          rw [hcontent] at h
          simp only [foldlM_convertBlock host request h]
          simp only [bind, Except.bind, pure, Except.pure, List.nil_append]
          split
          · rw [List.append_assoc]
          · rw [List.append_nil]

theorem convertMessage_panic {m : ClaudeMessage J} (messages : List (Message J))
    (h : ∃ block ∈ m.blocks, NoSource block) :
    convertMessage host request messages m = .error .panic := by
  unfold convertMessage ClaudeMessage.blocks at *
  cases hcontent : m.content with
  | string s =>
      rw [hcontent] at h
      obtain ⟨block, hmem, -⟩ := h
      cases hmem
  | parsed result =>
      rw [hcontent] at h
      cases result with
      | error text =>
          obtain ⟨block, hmem, -⟩ := h
          cases hmem
      | ok blocks =>
          simp only [foldlM_convertBlock_panic host request h]
          rfl

/-- What the messages of a request become. -/
theorem foldlM_convertMessage {ms : List (ClaudeMessage J)} (hparses : ∀ m ∈ ms, Parses m)
    (h : ∀ m ∈ ms, ∀ block ∈ m.blocks, ¬ NoSource block) (messages : List (Message J)) :
    ms.foldlM (convertMessage host request) messages =
      .ok (messages ++ ms.flatMap fun m => toolMessages host request m ++ ownMessage host m) := by
  induction ms generalizing messages with
  | nil => simp [pure, Except.pure]
  | cons m ms ih =>
      rw [List.foldlM_cons, convertMessage_eq host request messages (hparses m List.mem_cons_self)
        (h m List.mem_cons_self)]
      show ms.foldlM (convertMessage host request) _ = _
      rw [ih (fun n hn => hparses n (List.mem_cons_of_mem _ hn))
        (fun n hn => h n (List.mem_cons_of_mem _ hn)), List.flatMap_cons, List.append_assoc]

theorem foldlM_convertMessage_panic {ms : List (ClaudeMessage J)} (hparses : ∀ m ∈ ms, Parses m)
    (h : ∃ m ∈ ms, ∃ block ∈ m.blocks, NoSource block) (messages : List (Message J)) :
    ms.foldlM (convertMessage host request) messages = .error .panic := by
  induction ms generalizing messages with
  | nil =>
      obtain ⟨m, hmem, -⟩ := h
      cases hmem
  | cons m ms ih =>
      rw [List.foldlM_cons]
      by_cases hm : ∃ block ∈ m.blocks, NoSource block
      · rw [convertMessage_panic host request messages hm]
        rfl
      · obtain ⟨n, hn, hnone⟩ := h
        push Not at hm
        rw [convertMessage_eq host request messages (hparses m List.mem_cons_self) hm]
        rcases List.mem_cons.mp hn with rfl | hn
        · obtain ⟨block, hmem, hno⟩ := hnone
          exact absurd hno (hm block hmem)
        · exact ih (fun n hn => hparses n (List.mem_cons_of_mem _ hn)) ⟨n, hn, hnone⟩ _

end pieces

end MaxApi.Convert.FromClaude
