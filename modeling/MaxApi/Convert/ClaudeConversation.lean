import MaxApi.Convert.ClaudeRequest

/-! # Conversions: the conversation of a Claude request

What of a Claude request arrives in the messages of the OpenAI request: the texts and images, in
their order and in messages of their role, the calls, and the results behind their calls. -/

namespace MaxApi.Convert.FromClaude

open MaxApi.ChatRequest

/-! ### Lists -/

section lists

variable {α β : Type}

/-- Lists of which one has no more from any element are equal only if they are equal everywhere. -/
theorem flatMap_eq_iff {f g : α → List β} {l : List α}
    (hle : ∀ a ∈ l, (g a).length ≤ (f a).length) :
    l.flatMap f = l.flatMap g ↔ ∀ a ∈ l, f a = g a := by
  have hlen : ∀ k : List α, (∀ a ∈ k, (g a).length ≤ (f a).length) →
      (k.flatMap g).length ≤ (k.flatMap f).length := by
    intro k hk
    induction k with
    | nil => exact Nat.le_refl _
    | cons a k ih =>
        have ha := hk a List.mem_cons_self
        have hrest := ih fun b hb => hk b (List.mem_cons_of_mem _ hb)
        rw [List.flatMap_cons, List.flatMap_cons, List.length_append, List.length_append]
        omega
  constructor
  · intro h
    induction l with
    | nil => simp
    | cons a l ih =>
        rw [List.flatMap_cons, List.flatMap_cons] at h
        have hl : ∀ b ∈ l, (g b).length ≤ (f b).length := fun b hb =>
          hle b (List.mem_cons_of_mem _ hb)
        have htotal := congrArg List.length h
        rw [List.length_append, List.length_append] at htotal
        have ha := hle a List.mem_cons_self
        have hrest := hlen l hl
        obtain ⟨hhead, htail⟩ := List.append_inj h (by omega)
        intro b hb
        rcases List.mem_cons.mp hb with rfl | hb
        · exact hhead
        · exact ih hl htail b hb
  · intro h
    induction l with
    | nil => rfl
    | cons a l ih =>
        rw [List.flatMap_cons, List.flatMap_cons, h a List.mem_cons_self,
          ih (fun b hb => hle b (List.mem_cons_of_mem _ hb)) fun b hb =>
            h b (List.mem_cons_of_mem _ hb)]

theorem filterMap_eq_iff {f g : α → Option β} {l : List α}
    (hsome : ∀ a ∈ l, (f a).isSome = (g a).isSome) :
    (l.filterMap f).length = (l.filterMap g).length ∧
      (l.filterMap f = l.filterMap g ↔ ∀ a ∈ l, f a = g a) := by
  induction l with
  | nil => simp
  | cons a l ih =>
      obtain ⟨hlength, hiff⟩ := ih fun b hb => hsome b (List.mem_cons_of_mem _ hb)
      have ha := hsome a List.mem_cons_self
      cases hf : f a with
      | none =>
          rw [hf] at ha
          have hg : g a = none := Option.not_isSome_iff_eq_none.mp (by simp [← ha])
          rw [List.filterMap_cons_none hf, List.filterMap_cons_none hg]
          refine ⟨hlength, hiff.trans ?_⟩
          simp [hf, hg]
      | some x =>
          rw [hf] at ha
          obtain ⟨y, hg⟩ := Option.isSome_iff_exists.mp ha.symm
          rw [List.filterMap_cons_some hf, List.filterMap_cons_some hg]
          refine ⟨by simp [hlength], ?_⟩
          rw [List.cons.injEq, hiff]
          simp [hf, hg]

end lists

/-! ### Texts and images -/

/-- A text or the URL of an image. -/
inductive Item where
  | text (s : String)
  | image (url : String)
  deriving DecidableEq

section items

variable {J : Type} (host : Host J)

/-- The URL of an image: that of its source, or else the one that its data make. -/
def imageUrl (source : ClaudeMessageSource J) : Option String :=
  if source.url ≠ "" then some source.url
  else
    match source.data with
    | .string s => some ("data:" ++ source.mediaType ++ ";base64," ++ s)
    | .other _ => none

/-- A source of which the data make the URL. -/
def FromData (source : ClaudeMessageSource J) : Prop :=
  (source.url = "" ∧ ∃ s, source.data = .string s) ∨
    (source.url ≠ "" ∧ source.url = imageData host source)

theorem imageUrl_iff (source : ClaudeMessageSource J) :
    imageUrl source = some (imageData host source) ↔ FromData host source := by
  unfold imageUrl FromData
  by_cases hurl : source.url = ""
  · rw [if_neg (not_not.mpr hurl)]
    cases hdata : source.data with
    | string s =>
        refine iff_of_true ?_ (.inl ⟨hurl, s, rfl⟩)
        unfold imageData
        rw [hdata]
        rfl
    | other j => simp [hurl]
  · rw [if_pos hurl, Option.some_inj]
    simp [hurl]

/-- The text or image of a block, `some none` where an image has no URL. -/
def blockItem (block : ClaudeMediaMessage J) : Option (Option Item) :=
  if block.type = "text" ∨ block.type = "input_text" then
    if block.getText = "" then none else some (some (.text block.getText))
  else if block.type = "image" then some ((block.source.bind imageUrl).map .image)
  else none

/-- The texts and images of a message, each with the role; texts that are empty are left out. -/
def messageItems (m : ClaudeMessage J) : List (String × Option Item) :=
  match m.content with
  | .string s => if s = "" then [] else [(m.role, some (.text s))]
  | _ => (m.blocks.filterMap blockItem).map (m.role, ·)

/-- The text or image of a content. -/
def mediaItem (content : MediaContent) : Option Item :=
  if content.type = "text" then
    if content.text = "" then none else some (.text content.text)
  else content.imageUrl.map fun image => .image image.url

/-- The texts and images of messages that are no tool messages, each with the role. -/
def sentItems (messages : List (Message J)) : List (String × Item) :=
  messages.flatMap fun m =>
    if m.name = none then (m.content.parse.filterMap mediaItem).map (m.role, ·) else []

/-- A message of which the texts and images are kept: it does not have both calls and these, and the
data of its images make their URLs. -/
def Keeps (m : ClaudeMessage J) : Prop :=
  (toolUses m.blocks = [] ∨ messageItems m = []) ∧
    ∀ block ∈ m.blocks, block.type = "image" → ∀ source ∈ block.source, FromData host source

theorem blockItem_eq_iff {block : ClaudeMediaMessage J} (h : ¬ NoSource block) :
    (blockItem block).isSome = (((blockMedia host block).bind mediaItem).map some).isSome ∧
      (blockItem block = ((blockMedia host block).bind mediaItem).map some ↔
        (block.type = "image" → ∀ source ∈ block.source, FromData host source)) := by
  unfold blockItem blockMedia
  by_cases htext : block.type = "text" ∨ block.type = "input_text"
  · have himage : ¬ block.type = "image" := by rcases htext with ht | ht <;> simp [ht]
    rw [if_pos htext, if_pos htext]
    by_cases hempty : block.getText = ""
    · simp [mediaItem, textMedia, hempty, himage]
    · simp [mediaItem, textMedia, hempty, himage]
  rw [if_neg htext, if_neg htext]
  by_cases himage : block.type = "image"
  · rw [if_pos himage, if_pos himage]
    cases hsource : block.source with
    | none => exact absurd ⟨himage, hsource⟩ h
    | some source =>
        have hmedia : mediaItem (imageMedia host source) =
            some (.image (imageData host source)) := by
          unfold mediaItem imageMedia
          simp
        refine ⟨by simp [hmedia], ?_⟩
        simp only [Option.map_some, Option.bind_some, hmedia, Option.some_inj, himage,
          forall_const, Option.mem_some_iff, forall_eq']
        rw [← imageUrl_iff]
        cases imageUrl source with
        | none => simp
        | some url => simp
  · rw [if_neg himage, if_neg himage]
    simp [himage]

/-! ### What a message sends -/

variable (request : ClaudeRequest J)

theorem sentItems_append (l l' : List (Message J)) :
    sentItems (l ++ l') = sentItems l ++ sentItems l' := List.flatMap_append

theorem toolMessages_named (m : ClaudeMessage J) :
    ∀ x ∈ toolMessages host request m, x.name.isSome = true ∧ x.role = "tool" ∧ x.calls = [] := by
  intro x hx
  obtain ⟨block, -, rfl⟩ := List.mem_map.mp hx
  exact ⟨rfl, rfl, rfl⟩

theorem sentItems_toolMessages (m : ClaudeMessage J) :
    sentItems (toolMessages host request m) = [] := by
  refine List.flatMap_eq_nil_iff.mpr fun x hx => ?_
  obtain ⟨hname, -, -⟩ := toolMessages_named host request m x hx
  exact if_neg (Option.isSome_iff_ne_none.mp hname)

/-- The own message of a content has no name, and all calls of the content. -/
theorem ownMessage_calls (m : ClaudeMessage J) :
    (∀ x ∈ ownMessage host m, x.name = none) ∧
      (ownMessage host m).flatMap Message.calls = (toolUses m.blocks).map (toolCall host) := by
  unfold ownMessage ClaudeMessage.blocks
  cases m.content with
  | string s => simp [Message.ofRole, Message.calls, toolUses]
  | parsed result =>
      cases result with
      | error text => simp [toolUses]
      | ok blocks =>
          dsimp only
          by_cases huses : (toolUses blocks).map (toolCall host) = []
          · split
            · simp [blocksMessage, Message.calls, Message.ofRole, huses]
            · simp [huses]
          · rw [if_pos (.inr (by simp only [blocksMessage]; rw [if_pos huses]; simp))]
            simp only [blocksMessage, if_pos huses]
            simp [Message.calls, Message.ofRole]

/-- Without calls, blocks are sent as their texts and images. -/
theorem sentItems_blocksMessage (role : String) (blocks : List (ClaudeMediaMessage J))
    (huses : toolUses blocks = []) :
    let message := blocksMessage role (blocks.filterMap (blockMedia host))
      ((toolUses blocks).map (toolCall host))
    (sentItems (if message.content.parse ≠ [] ∨ message.toolCalls ≠ none then [message]
        else [])).map (Prod.map id some) =
      (blocks.filterMap fun b => ((blockMedia host b).bind mediaItem).map some).map (role, ·) := by
  rw [huses, ← List.map_filterMap, ← List.filterMap_filterMap]
  cases blocks.filterMap (blockMedia host) with
  | nil => simp [blocksMessage, Content.parse, Message.ofRole, sentItems]
  | cons media rest =>
      simp [blocksMessage, Content.parse, Message.ofRole, sentItems]

/-- With calls, no text and no image is sent. -/
theorem sentItems_calls (role : String) (mediaMessages : List MediaContent)
    {toolCalls : List (ToolCallRequest J)} (hcalls : toolCalls ≠ []) :
    let message := blocksMessage role mediaMessages toolCalls
    sentItems (if message.content.parse ≠ [] ∨ message.toolCalls ≠ none then [message] else []) =
      [] := by
  simp [blocksMessage, Content.parse, Message.ofRole, sentItems, hcalls]

/-- The texts and images that the own message of a content sends. -/
theorem ownMessage_items (m : ClaudeMessage J) (h : ∀ block ∈ m.blocks, ¬ NoSource block) :
    ((sentItems (ownMessage host m)).map (Prod.map id some)).length ≤ (messageItems m).length ∧
      (messageItems m = (sentItems (ownMessage host m)).map (Prod.map id some) ↔ Keeps host m) := by
  unfold Keeps ownMessage messageItems ClaudeMessage.blocks at *
  cases hcontent : m.content with
  | string s =>
      by_cases hempty : s = ""
      · simp [sentItems, Content.parse, mediaItem, MediaContent.ofText, Message.ofRole, toolUses,
          hempty]
      · simp [sentItems, Content.parse, mediaItem, MediaContent.ofText, Message.ofRole, toolUses,
          hempty]
  | parsed result =>
      cases result with
      | error text => simp [sentItems, toolUses]
      | ok blocks =>
          rw [hcontent] at h
          dsimp only at h ⊢
          by_cases huses : toolUses blocks = []
          · rw [sentItems_blocksMessage host m.role blocks huses]
            have hiff := fun block hb => blockItem_eq_iff host (h block hb)
            obtain ⟨hlength, heq⟩ := filterMap_eq_iff fun block hb => (hiff block hb).1
            rw [List.length_map, List.length_map, hlength]
            refine ⟨Nat.le_refl _, ?_⟩
            rw [List.map_inj_right (fun _ _ => by simp), heq]
            refine ⟨fun hall => ⟨.inl huses, fun block hb => ?_⟩, fun hkeeps block hb => ?_⟩
            · exact (hiff block hb).2.mp (hall block hb)
            · exact (hiff block hb).2.mpr (hkeeps.2 block hb)
          · have hcalls : (toolUses blocks).map (toolCall host) ≠ [] := by simpa using huses
            rw [sentItems_calls m.role _ hcalls, List.map_nil, List.length_nil]
            refine ⟨Nat.zero_le _, fun hnil => ⟨.inr hnil, fun block hb himage source _ => ?_⟩,
              fun hkeeps => hkeeps.1.resolve_left huses⟩
            -- an image would be among the texts and images
            rw [List.map_eq_nil_iff, List.filterMap_eq_nil_iff] at hnil
            have hitem := hnil block hb
            unfold blockItem at hitem
            rw [if_neg (by rw [himage]; decide), if_pos himage] at hitem
            cases hitem

/-- A result of `m` has the identifier of a call of `m'`. -/
def Answers (m m' : ClaudeMessage J) : Prop :=
  ∃ result ∈ toolResults m.blocks, ∃ call ∈ toolUses m'.blocks, call.id = result.toolUseId

/-- The message `x` is no tool message with the identifier of a call of `y`. -/
def NotAnswer (x y : Message J) : Prop :=
  x.name.isSome = true → ∀ call ∈ y.calls, call.id ≠ x.toolCallId

theorem exists_answer {m m' : ClaudeMessage J} (h : Answers m m') :
    ∃ x ∈ toolMessages host request m, ∃ y ∈ ownMessage host m', ¬ NotAnswer x y := by
  obtain ⟨result, hresult, use, huse, hid⟩ := h
  have hcall : toolCall host use ∈ (ownMessage host m').flatMap Message.calls := by
    rw [(ownMessage_calls host m').2]
    exact List.mem_map_of_mem huse
  obtain ⟨y, hy, hmem⟩ := List.mem_flatMap.mp hcall
  refine ⟨toolMessage host request result, List.mem_map_of_mem hresult, y, hy, fun hnot => ?_⟩
  exact hnot rfl _ hmem hid

theorem notAnswer_iff (m m' : ClaudeMessage J) :
    (∀ x ∈ toolMessages host request m ++ ownMessage host m,
      ∀ y ∈ toolMessages host request m' ++ ownMessage host m', NotAnswer x y) ↔
        ¬ Answers m m' := by
  constructor
  · intro hall h
    obtain ⟨x, hx, y, hy, hnot⟩ := exists_answer host request h
    exact hnot (hall x (List.mem_append_left _ hx) y (List.mem_append_right _ hy))
  · intro h x hx y hy hname call hcall hid
    rcases List.mem_append.mp hx with hx | hx
    · obtain ⟨result, hresult, rfl⟩ := List.mem_map.mp hx
      rcases List.mem_append.mp hy with hy | hy
      · rw [(toolMessages_named host request m' y hy).2.2] at hcall
        cases hcall
      · have hmem : call ∈ (ownMessage host m').flatMap Message.calls :=
          List.mem_flatMap.mpr ⟨y, hy, hcall⟩
        rw [(ownMessage_calls host m').2] at hmem
        obtain ⟨use, huse, rfl⟩ := List.mem_map.mp hmem
        exact h ⟨result, hresult, use, huse, hid⟩
    · rw [(ownMessage_calls host m).1 x hx] at hname
      cases hname

/-- No tool message stands before a message with its call. -/
def InOrder (messages : List (Message J)) : Prop := messages.Pairwise NotAnswer

/-- No result stands in the message of its call or before it. -/
def Follows (messages : List (ClaudeMessage J)) : Prop :=
  (∀ m ∈ messages, ¬ Answers m m) ∧ messages.Pairwise fun m m' => ¬ Answers m m'

theorem inOrder_iff (messages : List (ClaudeMessage J)) :
    InOrder (messages.flatMap fun m => toolMessages host request m ++ ownMessage host m) ↔
      Follows messages := by
  unfold InOrder Follows
  rw [List.pairwise_flatMap]
  refine and_congr (forall₂_congr fun m _ => ?_) ?_
  · rw [← notAnswer_iff host request]
    constructor
    · intro hpairwise
      rw [notAnswer_iff]
      intro h
      obtain ⟨x, hx, y, hy, hnot⟩ := exists_answer host request h
      exact hnot ((List.pairwise_append.mp hpairwise).2.2 x hx y hy)
    · intro hall
      exact List.pairwise_of_forall_mem_list hall
  · simp only [notAnswer_iff]

/-! ### The conversation -/

/-- What all messages become. -/
def converted : List (Message J) :=
  request.messages.flatMap fun m => toolMessages host request m ++ ownMessage host m

theorem converted_calls :
    (converted host request).flatMap Message.calls =
      request.messages.flatMap fun m => (toolUses m.blocks).map (toolCall host) := by
  unfold converted
  rw [List.flatMap_assoc]
  refine List.flatMap_congr fun m _ => ?_
  have htools : (toolMessages host request m).flatMap Message.calls = [] :=
    List.flatMap_eq_nil_iff.mpr fun x hx => (toolMessages_named host request m x hx).2.2
  rw [List.flatMap_append, htools, (ownMessage_calls host m).2, List.nil_append]

theorem converted_tools :
    ((converted host request).filter (·.name.isSome)).map (fun m => (m.role, m.toolCallId)) =
      request.messages.flatMap fun m =>
        (toolResults m.blocks).map fun b => ("tool", b.toolUseId) := by
  unfold converted
  rw [List.filter_flatMap, List.map_flatMap]
  refine List.flatMap_congr fun m _ => ?_
  have htools : (toolMessages host request m).filter (·.name.isSome) =
      toolMessages host request m :=
    List.filter_eq_self.mpr fun x hx => (toolMessages_named host request m x hx).1
  have hown : (ownMessage host m).filter (·.name.isSome) = [] := by
    refine List.filter_eq_nil_iff.mpr fun x hx => ?_
    rw [(ownMessage_calls host m).1 x hx]
    simp
  rw [List.filter_append, htools, hown, List.append_nil]
  unfold toolMessages
  rw [List.map_map]
  rfl

theorem converted_items (h : ∀ m ∈ request.messages, ∀ block ∈ m.blocks, ¬ NoSource block) :
    request.messages.flatMap messageItems =
        (sentItems (converted host request)).map (Prod.map id some) ↔
      ∀ m ∈ request.messages, Keeps host m := by
  have hsent : (sentItems (converted host request)).map (Prod.map id some) =
      request.messages.flatMap fun m =>
        (sentItems (ownMessage host m)).map (Prod.map id some) := by
    unfold converted sentItems
    rw [List.flatMap_assoc, List.map_flatMap]
    refine List.flatMap_congr fun m _ => ?_
    show (sentItems (toolMessages host request m ++ ownMessage host m)).map _ = _
    rw [sentItems_append, sentItems_toolMessages, List.nil_append]
    rfl
  rw [hsent, flatMap_eq_iff fun m hm => (ownMessage_items host m (h m hm)).1]
  exact forall₂_congr fun m hm => (ownMessage_items host m (h m hm)).2

/-- **Main.**  A request of which the contents can be parsed is converted, without a panic, exactly
if all its images have a source.  All calls are sent, with their names and arguments, and all
results as tool messages with their identifiers; the texts and images are sent once, in their order
and with their roles, exactly if no message has both calls and texts or images and the data of all
images make their URLs; and no tool message stands before the message of its call exactly if no
result stands in the message of its call or before it. -/
theorem conversation_kept_iff (isOpenRouterClaude : Bool)
    (hparses : ∀ m ∈ request.messages, Parses m) :
    ((convertMessages host isOpenRouterClaude request ≠ .error .panic ↔
        ∀ m ∈ request.messages, ∀ block ∈ m.blocks, ¬ NoSource block) ∧
      ∀ text, convertMessages host isOpenRouterClaude request ≠ .error (.error text)) ∧
    ∀ out, convertMessages host isOpenRouterClaude request = .ok out →
      ∃ messages, out = systemMessages isOpenRouterClaude request.system ++ messages ∧
        messages.flatMap Message.calls =
          request.messages.flatMap (fun m => (toolUses m.blocks).map (toolCall host)) ∧
        (messages.filter (·.name.isSome)).map (fun m => (m.role, m.toolCallId)) =
          request.messages.flatMap
            (fun m => (toolResults m.blocks).map fun b => ("tool", b.toolUseId)) ∧
        (request.messages.flatMap messageItems = (sentItems messages).map (Prod.map id some) ↔
          ∀ m ∈ request.messages, Keeps host m) ∧
        (InOrder messages ↔ Follows request.messages) := by
  by_cases hsource : ∀ m ∈ request.messages, ∀ block ∈ m.blocks, ¬ NoSource block
  · have hconvert := foldlM_convertMessage host request hparses hsource
      (systemMessages isOpenRouterClaude request.system)
    unfold convertMessages
    rw [hconvert]
    refine ⟨⟨iff_of_true (by simp) hsource, by simp⟩, fun out hout => ?_⟩
    refine ⟨converted host request, (Except.ok.inj hout).symm, converted_calls host request,
      converted_tools host request, converted_items host request hsource, ?_⟩
    exact inOrder_iff host request request.messages
  · have hpanic : ∃ m ∈ request.messages, ∃ block ∈ m.blocks, NoSource block := by
      push Not at hsource
      exact hsource
    have hconvert := foldlM_convertMessage_panic host request hparses hpanic
      (systemMessages isOpenRouterClaude request.system)
    unfold convertMessages
    rw [hconvert]
    refine ⟨⟨iff_of_false (by simp) hsource, by simp⟩, fun out hout => ?_⟩
    cases hout

end items

/-! ### Concrete requests -/

/-- The printing functions where all values that are no strings are `nil`. -/
def nilHost : Host Unit := ⟨fun _ => "null", fun _ => "%!s(<nil>)", fun _ => "null"⟩

def emptyBlock (type : String) : ClaudeMediaMessage Unit :=
  ⟨type, none, none, none, "", "", (), .other (), ""⟩

def textBlock (text : String) : ClaudeMediaMessage Unit :=
  { emptyBlock "text" with text := some text }

def imageBlock (source : Option (ClaudeMessageSource Unit)) : ClaudeMediaMessage Unit :=
  { emptyBlock "image" with source := source }

def callBlock (id : String) : ClaudeMediaMessage Unit :=
  { emptyBlock "tool_use" with id := id, name := "f" }

def resultBlock (id : String) : ClaudeMediaMessage Unit :=
  { emptyBlock "tool_result" with toolUseId := id }

def request (messages : List (String × List (ClaudeMediaMessage Unit))) : ClaudeRequest Unit :=
  ⟨.none, messages.map fun m => ⟨m.1, .parsed (.ok m.2)⟩⟩

/-- A question, a call and its result. -/
def conversation : ClaudeRequest Unit :=
  request [("user", [textBlock "a"]), ("assistant", [callBlock "x"]), ("user", [resultBlock "x"])]

/-- The conversation is kept. -/
theorem conversation_kept_iff_conversation :
    ∃ messages, convertMessages nilHost false conversation = .ok messages ∧
      conversation.messages.flatMap messageItems =
        (sentItems messages).map (Prod.map id some) ∧ InOrder messages := by
  have hparses : ∀ m ∈ conversation.messages, Parses m := by
    simp [conversation, request, Parses]
  obtain ⟨-, hkept⟩ := conversation_kept_iff nilHost conversation false hparses
  obtain ⟨out, hout⟩ : ∃ out, convertMessages nilHost false conversation = .ok out := ⟨_, rfl⟩
  obtain ⟨messages, hmessages, -, -, hitems, horder⟩ := hkept out hout
  have hkeeps : ∀ m ∈ conversation.messages, Keeps nilHost m := by
    simp [conversation, request, Keeps, messageItems, blockItem, toolUses, ClaudeMessage.blocks,
      textBlock, callBlock, resultBlock, emptyBlock]
  have hfollows : Follows conversation.messages := by
    simp [Follows, Answers, conversation, request, toolResults, toolUses, ClaudeMessage.blocks,
      textBlock, callBlock, resultBlock, emptyBlock]
  rw [hmessages] at hout
  exact ⟨messages, hout, hitems.mpr hkeeps, horder.mpr hfollows⟩

/-- An image without a source panics; a text beside a call is lost; an image with a URL is sent as
the data that it does not have; and a result in the message of its call is sent before it. -/
theorem conversation_loses :
    convertMessages nilHost false (request [("user", [imageBlock none])]) = .error .panic ∧
      (∃ messages, convertMessages nilHost false
          (request [("assistant", [textBlock "a", callBlock "x"])]) = .ok messages ∧
        sentItems messages = []) ∧
      (∃ messages, convertMessages nilHost false
          (request [("user", [imageBlock (some ⟨"", .other (), "https://u"⟩)])]) = .ok messages ∧
        sentItems messages = [("user", .image "data:;base64,%!s(<nil>)")]) ∧
      ∃ messages, convertMessages nilHost false
          (request [("user", [callBlock "x", resultBlock "x"])]) = .ok messages ∧
        ¬ InOrder messages := by
  refine ⟨rfl, ⟨_, rfl, by decide⟩, ⟨_, rfl, by decide⟩, _, rfl, ?_⟩
  intro h
  have hnot := List.rel_of_pairwise_cons h List.mem_cons_self
  exact absurd (hnot rfl _ List.mem_cons_self) (by decide)

end MaxApi.Convert.FromClaude
