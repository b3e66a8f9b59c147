import MaxApi.Convert.ClaudeRuns
import Mathlib.Data.List.Forall2

/-! # Conversions: what an OpenAI request carries to Claude

The pieces of a request are the texts of its runs, the calls and the outputs of tools.  The second
pass sends those of the system runs and then the others, each once and in their order, and nothing
else but a message of dots before a first message that is not the user's
(`conversation_carried`). -/

namespace MaxApi.Convert.ToClaude

open Text

/-! ### Pieces -/

/-- A piece of an OpenAI request. -/
inductive InPiece where
  | text (text : String)
  | call (id name arguments : String)
  | output (toolCallId : String) (content : Content)
  deriving DecidableEq

/-- A piece of a Claude request. -/
inductive OutPiece (J : Type) where
  | text (text : String)
  | toolUse (id name : String) (input : J)
  | toolResult (toolUseId : String) (content : Content)
  deriving DecidableEq

/-- The calls of a message. -/
def callPieces (m : Message) : List InPiece :=
  (assistantCalls m).map fun call => .call call.id call.name call.arguments

section pieces

variable {J : Type}

def blockPiece : Block J → Option (OutPiece J)
  | .text text => some (.text text)
  | .toolUse id name input => some (.toolUse id name input)
  | .toolResult id content => some (.toolResult id content)
  | _ => none

def contentPieces (content : ClaudeContent J) : List (OutPiece J) :=
  content.toBlocks.filterMap blockPiece

/-- The contents that are sent, those of the system first. -/
def contents (r : ClaudeRequest J) : List (OutPiece J) :=
  r.system.map .text ++ r.messages.flatMap fun m => contentPieces m.content

variable (host : Host J)

/-- The text of an attached text file. -/
def attachedText (fileName fileData : String) : Option String :=
  if fileData = "" ∨ hasPrefix fileData "http://" ∨ hasPrefix fileData "https://" then none
  else
    let mimeType :=
      if (splitDataUrl fileData).1 = "" then mimeTypeByName host fileName
      else (splitDataUrl fileData).1
    if hasPrefix mimeType "text/" then host.decodeBase64 (splitDataUrl fileData).2 else none

/-- The text of a part; what is attached to a system message is left out. -/
def partText (role : String) : MediaPart → Option String
  | .file fileName fileData => if role = "system" then none else attachedText host fileName fileData
  | part => part.nonempty

/-- The texts of a run: that of its joined messages, or those of the parts of its message. -/
def runTexts : List Message → List String
  | [] => []
  | m :: rest =>
      match m.content with
      | .parts l => l.filterMap (partText host m.role)
      | _ => [runText (m :: rest)]

/-- The pieces of a run: a tool message is an output, which dots stand for where it is empty; any
other has texts and calls. -/
def runPieces : List Message → List InPiece
  | [] => []
  | m :: rest =>
      if m.role = "tool" then [.output m.toolCallId (fill m.content)]
      else (runTexts host (m :: rest)).map .text ++ (m :: rest).flatMap callPieces

def isSystem (run : List Message) : Bool := runRole run = "system"

/-- The dots before a first run that is not the user's. -/
def openingPieces : List (List Message) → List InPiece
  | [] => []
  | run :: _ => if runRole run ≠ "user" then [.text "..."] else []

/-- The pieces of the runs that are sent as messages. -/
def otherPieces (others : List (List Message)) : List InPiece :=
  openingPieces others ++ others.flatMap (runPieces host)

/-- The pieces of a request in the order in which they are sent. -/
def pieces (messages : List Message) : List InPiece :=
  let system := (runs messages).filter isSystem
  let others := (runs messages).filter fun run => !isSystem run
  system.flatMap (runPieces host) ++ otherPieces host others

/-- The arguments of a call are those of a use. -/
def SameInput (arguments : String) (input : J) : Prop :=
  if arguments = "" then input = host.emptyObject else host.decodeObject arguments = .ok input

/-- What a piece is sent as: a text unmodified, a call as a use with its identifier, name and
arguments, and an output as a result with its identifier and content. -/
inductive SentAs : InPiece → OutPiece J → Prop where
  | text (s : String) : SentAs (.text s) (.text s)
  | call (id name : String) {arguments : String} {input : J}
    (same : SameInput host arguments input) :
      SentAs (.call id name arguments) (.toolUse id name input)
  | output (id : String) (content : Content) :
      SentAs (.output id content) (.toolResult id content)

/-- The pieces are sent each once and in their order, and nothing else is. -/
def Carries (ins : List InPiece) (outs : List (OutPiece J)) : Prop :=
  List.Forall₂ (SentAs host) ins outs

variable {host}

theorem Carries.nil : Carries host [] [] := List.Forall₂.nil

theorem Carries.append {ins ins' : List InPiece} {outs outs' : List (OutPiece J)}
    (h : Carries host ins outs) (h' : Carries host ins' outs') :
    Carries host (ins ++ ins') (outs ++ outs') := List.rel_append h h'

theorem Carries.single {a : InPiece} {b : OutPiece J} (h : SentAs host a b) :
    Carries host [a] [b] := .cons h .nil

theorem Carries.texts (ts : List String) : Carries host (ts.map .text) (ts.map .text) := by
  induction ts with
  | nil => exact .nil
  | cons s ts ih => exact .cons (.text s) ih

end pieces

/-! ### The second pass -/

section second

variable {J : Type} {host : Host J}

theorem bind_ok {α β : Type} {x : Except Failure α} {f : α → Except Failure β} {b : β}
    (h : (x >>= f) = .ok b) : ∃ a, x = .ok a ∧ f a = .ok b := by
  cases x with
  | error e => cases h
  | ok a => exact ⟨a, rfl, h⟩

/-- What is collected carries what its elements carry. -/
theorem collect_carries {α : Type} {f : α → Except Failure (List (Block J))}
    {g : α → List InPiece}
    (hf : ∀ a blocks, f a = .ok blocks → Carries host (g a) (blocks.filterMap blockPiece))
    {l : List α} {blocks : List (Block J)} (h : collect f l = .ok blocks) :
    Carries host (l.flatMap g) (blocks.filterMap blockPiece) := by
  induction l generalizing blocks with
  | nil =>
      cases h
      exact .nil
  | cons a l ih =>
      obtain ⟨first, hfirst, h⟩ := bind_ok h
      obtain ⟨rest, hrest, h⟩ := bind_ok h
      cases h
      rw [List.flatMap_cons, List.filterMap_append]
      exact (hf a first hfirst).append (ih hrest)

/-- A source that is loaded sends no text. -/
theorem sourceBlock_pieces {source : Option FileSource} {blocks : List (Block J)}
    (h : sourceBlock host source = .ok blocks) : blocks.filterMap blockPiece = [] := by
  unfold sourceBlock at h
  split at h
  · cases h
    rfl
  · split at h
    · cases h
    · cases h
      split <;> rfl

/-- A file that is not remote sends its text, if it is one of text. -/
theorem fileBlock_pieces {fileName fileData : String}
    (h : ¬ (fileData = "" ∨ hasPrefix fileData "http://" ∨ hasPrefix fileData "https://")) :
    (fileBlock host fileName fileData).filterMap blockPiece =
      (attachedText host fileName fileData).toList.map .text := by
  unfold fileBlock attachedText
  rw [if_neg h]
  dsimp only
  generalize (if (splitDataUrl fileData).1 = "" then mimeTypeByName host fileName
    else (splitDataUrl fileData).1) = mimeType
  by_cases hpdf : mimeType = "application/pdf"
  · have htext : ¬ hasPrefix mimeType "text/" = true := by
      rw [hpdf]
      decide +kernel
    rw [if_pos hpdf, if_neg htext]
    rfl
  rw [if_neg hpdf]
  by_cases htext : hasPrefix mimeType "text/" = true
  · rw [if_pos htext, if_pos htext]
    cases host.decodeBase64 (splitDataUrl fileData).2 with
    | none => rfl
    | some decoded => rfl
  · rw [if_neg htext, if_neg htext]
    split <;> rfl

/-- The part carries its text. -/
theorem mediaBlock_pieces {role : String} (hrole : role ≠ "system") {part : MediaPart}
    {blocks : List (Block J)} (h : mediaBlock host part = .ok blocks) :
    blocks.filterMap blockPiece = (partText host role part).toList.map .text := by
  cases part with
  | text s =>
      cases h
      dsimp only [partText, MediaPart.nonempty]
      split_ifs <;> rfl
  | file fileName fileData =>
      dsimp only [mediaBlock] at h
      dsimp only [partText]
      rw [if_neg hrole]
      by_cases hremote :
          fileData = "" ∨ hasPrefix fileData "http://" ∨ hasPrefix fileData "https://"
      · have hnone : attachedText host fileName fileData = none := if_pos hremote
        rw [hnone]
        split_ifs at h with hempty hlocal
        · cases h
          rfl
        · rcases hremote with hremote | hremote | hremote
          · exact absurd hremote hempty
          · exact absurd hremote hlocal.1
          · exact absurd hremote hlocal.2
        · exact sourceBlock_pieces h
      · rw [if_neg fun hempty => hremote (.inl hempty),
          if_pos (not_or.mp (not_or.mp hremote).2)] at h
        cases h
        exact fileBlock_pieces hremote
  | other source => exact sourceBlock_pieces h

/-- The uses carry the calls. -/
theorem uses_carries {calls : List ToolCall} {blocks : List (Block J)}
    (h : collect (fun call => (toolUseBlock host call).map fun b => [b]) calls = .ok blocks) :
    Carries host (calls.map fun call => .call call.id call.name call.arguments)
      (blocks.filterMap blockPiece) := by
  have hflat : (calls.map fun call => InPiece.call call.id call.name call.arguments) =
      calls.flatMap fun call => [.call call.id call.name call.arguments] := List.map_eq_flatMap
  rw [hflat]
  refine collect_carries (fun call blocks hcall => ?_) h
  unfold toolUseBlock at hcall
  by_cases hempty : call.arguments = ""
  · rw [if_neg (not_not.mpr hempty)] at hcall
    cases hcall
    refine .single (.call call.id call.name ?_)
    unfold SameInput
    rw [if_pos hempty]
  · rw [if_pos hempty] at hcall
    cases hdecode : host.decodeObject call.arguments with
    | error text =>
        rw [hdecode] at hcall
        cases hcall
    | ok input =>
        rw [hdecode] at hcall
        cases hcall
        refine .single (.call call.id call.name ?_)
        unfold SameInput
        rw [if_neg hempty]
        exact hdecode

/-- The calls of a run that is joined without a loss are those of its message. -/
theorem callPieces_run {m : Message} {rest : List Message} (hclean : CleanRun (m :: rest)) :
    (m :: rest).flatMap callPieces = callPieces (rest.getLastD m) := by
  have hlast : (m :: rest).getLast (List.cons_ne_nil m rest) = rest.getLastD m := by
    rw [List.getLast_eq_getLastD]
  have hinit : (m :: rest).dropLast.flatMap callPieces = [] := by
    apply List.flatMap_eq_nil_iff.mpr
    intro a ha
    unfold callPieces
    rw [hclean.calls a ha]
    rfl
  rw [← List.dropLast_concat_getLast (List.cons_ne_nil m rest), List.flatMap_append, hinit, hlast]
  simp

theorem keptCalls_pieces (m : Message) :
    ((keptCalls m).getD []).map (fun call => InPiece.call call.id call.name call.arguments) =
      callPieces m := by
  unfold keptCalls callPieces assistantCalls
  split_ifs <;> rfl

/-- What holds of the runs of a conversation that is joined without a loss. -/
structure IsRun (run : List Message) : Prop where
  nonempty : run ≠ []
  chain : run.IsChain fun a b => joins a b
  clean : CleanRun run

theorem isRun_of_mem {messages run : List Message} (hclean : Clean messages)
    (h : run ∈ runs messages) : IsRun run where
  nonempty := List.ne_nil_of_mem_splitBy h
  chain := List.isChain_of_mem_splitBy h
  clean := hclean run h

/-- The texts of a run whose message is a string. -/
theorem runTexts_string {m : Message} (h : (fill m.content).isString = true)
    (rest : List Message) : runTexts host (m :: rest) = [runText (m :: rest)] := by
  dsimp only [runTexts]
  cases hm : m.content with
  | parts l =>
      rw [hm] at h
      cases h
  | null | string _ => rfl

/-- A message that is neither a system nor a tool message carries its run. -/
theorem messageContent_carries {m : Message} {rest : List Message} (h : IsRun (m :: rest))
    (hsystem : m.role ≠ "system") (htool : m.role ≠ "tool") {content : ClaudeContent J}
    (hcontent : messageContent host (runMessage (m :: rest)) = .ok content) :
    Carries host (runPieces host (m :: rest)) (contentPieces content) := by
  have hcalls : (runMessage (m :: rest)).toolCalls = keptCalls (rest.getLastD m) := rfl
  dsimp only [runPieces]
  rw [if_neg htool, callPieces_run h.clean, ← keptCalls_pieces, ← hcalls]
  unfold messageContent at hcontent
  by_cases hm : (fill m.content).isString = true
  · have hfm : (runMessage (m :: rest)).content = .string (runText (m :: rest)) :=
      fill_runContent hm rest
    rw [hfm] at hcontent
    rw [runTexts_string hm]
    have hne : runText (m :: rest) ≠ "" := runText_ne_empty hm rest
    cases hkept : (runMessage (m :: rest)).toolCalls with
    | none =>
        rw [hkept] at hcontent
        cases hcontent
        rw [if_neg hne]
        exact .single (.text _)
    | some calls =>
        rw [hkept] at hcontent
        obtain ⟨media, hmedia, hcontent⟩ := bind_ok hcontent
        obtain ⟨uses, huses, hcontent⟩ := bind_ok hcontent
        cases hcontent
        have hone : media = [.text (runText (m :: rest))] := by
          simp [collect, Content.parse, mediaBlock, hne, bind, Except.bind, pure,
            Except.pure] at hmedia
          exact hmedia.symm
        rw [hone]
        exact (Carries.single (.text _)).append (uses_carries huses)
  · obtain ⟨l, hl⟩ := parts_of_fill hm
    have hfm : (runMessage (m :: rest)).content = .parts l := by
      show fill (runContent (m :: rest)) = .parts l
      rw [runContent_parts hm, hl]
      rfl
    rw [hfm] at hcontent
    obtain ⟨media, hmedia, hcontent⟩ := bind_ok hcontent
    obtain ⟨uses, huses, hcontent⟩ := bind_ok hcontent
    cases hcontent
    have htexts : Carries host ((runTexts host (m :: rest)).map .text)
        (media.filterMap blockPiece) := by
      dsimp only [runTexts]
      rw [hl]
      have hflat : (l.filterMap (partText host m.role)).map InPiece.text =
          l.flatMap fun part => (partText host m.role part).toList.map .text := by
        rw [List.filterMap_eq_flatMap_toList, List.map_flatMap]
      dsimp only
      rw [hflat]
      refine collect_carries (fun part blocks hpart => ?_) hmedia
      rw [mediaBlock_pieces hsystem hpart]
      exact .texts _
    rw [contentPieces, ClaudeContent.toBlocks, List.filterMap_append]
    exact htexts.append (uses_carries huses)

theorem contentPieces_toBlocks (content : ClaudeContent J) (blocks : List (Block J)) :
    contentPieces (.blocks (content.toBlocks ++ blocks)) =
      contentPieces content ++ blocks.filterMap blockPiece := by
  unfold contentPieces
  exact List.filterMap_append

/-- The pieces of messages. -/
def messagePieces (messages : List (ClaudeMessage J)) : List (OutPiece J) :=
  messages.flatMap fun m => contentPieces m.content

theorem addResult_pieces (messages : List (ClaudeMessage J)) (m : Message) :
    messagePieces (addResult messages m) =
      messagePieces messages ++ [.toolResult m.toolCallId m.content] := by
  unfold addResult messagePieces
  dsimp only
  split
  next last hlast =>
    split
    · obtain ⟨init, rfl⟩ := List.getLast?_eq_some_iff.mp hlast
      rw [List.dropLast_concat, List.flatMap_append, List.flatMap_append, List.append_assoc]
      show _ ++ (contentPieces (.blocks (last.content.toBlocks ++ _)) ++ []) = _
      rw [contentPieces_toBlocks, List.append_nil]
      show _ = _ ++ (contentPieces last.content ++ [] ++ _)
      rw [List.append_nil]
      rfl
    · rw [List.flatMap_append]
      rfl
  · rw [List.flatMap_append]
    rfl

/-- The dots that a message opens with. -/
def dots (isFirstMessage : Bool) (role : String) : List String :=
  if isFirstMessage ∧ role ≠ "user" then ["..."] else []

theorem opening_pieces (s : Second J) (m : Message) :
    messagePieces (opening s m) =
      messagePieces s.messages ++ (dots s.isFirstMessage m.role).map .text := by
  unfold opening messagePieces dots
  by_cases hopens : s.isFirstMessage = true ∧ m.role ≠ "user"
  · rw [if_pos hopens, if_pos hopens, List.flatMap_append]
    rfl
  · rw [if_neg hopens, if_neg hopens, List.map_nil, List.append_nil]

/-- A system message is sent as its texts. -/
theorem systemTexts_run {m : Message} {rest : List Message} (h : IsRun (m :: rest))
    (hsystem : m.role = "system") :
    (runMessage (m :: rest)).content.texts.map .text = runPieces host (m :: rest) := by
  have htool : m.role ≠ "tool" := by
    rw [hsystem]
    decide
  have hnone : callPieces (rest.getLastD m) = [] := by
    have hrole : (rest.getLastD m).role = "system" := (runMessage_role h.chain).trans hsystem
    unfold callPieces assistantCalls
    rw [hrole]
    rfl
  dsimp only [runPieces]
  rw [if_neg htool, callPieces_run h.clean, hnone, List.append_nil]
  by_cases hm : (fill m.content).isString = true
  · have hfm : (runMessage (m :: rest)).content = .string (runText (m :: rest)) :=
      fill_runContent hm rest
    have hne : runText (m :: rest) ≠ "" := runText_ne_empty hm rest
    have hone : (Content.string (runText (m :: rest))).texts = [runText (m :: rest)] := by
      simp [Content.texts, Content.parse, MediaPart.nonempty, hne]
    rw [hfm, hone, runTexts_string hm]
  · obtain ⟨l, hl⟩ := parts_of_fill hm
    have hfm : (runMessage (m :: rest)).content = .parts l := by
      show fill (runContent (m :: rest)) = .parts l
      rw [runContent_parts hm, hl]
      rfl
    have htexts : partText host "system" = MediaPart.nonempty := by
      funext part
      cases part with
      | text _ | other _ => rfl
      | file fileName fileData =>
          show (if "system" = "system" then none else attachedText host fileName fileData) = none
          exact if_pos rfl
    dsimp only [runTexts]
    rw [hfm, hl, hsystem]
    dsimp only
    rw [htexts]
    rfl

/-- **What one round of the second pass sends.** -/
theorem convertMessage_carries {m : Message} {rest : List Message} (h : IsRun (m :: rest))
    {s s' : Second J} (hstep : convertMessage host s (runMessage (m :: rest)) = .ok s') :
    if isSystem (m :: rest) then
      s'.isFirstMessage = s.isFirstMessage ∧ s'.messages = s.messages ∧
        ∃ system, s'.system = s.system ++ system ∧
          Carries host (runPieces host (m :: rest)) (system.map .text)
    else
      s'.isFirstMessage = false ∧ s'.system = s.system ∧
        ∃ sent, messagePieces s'.messages = messagePieces s.messages ++
            ((dots s.isFirstMessage m.role).map .text ++ sent) ∧
          Carries host (runPieces host (m :: rest)) sent := by
  have hrole := runMessage_role h.chain
  have hopening := opening_pieces s (runMessage (m :: rest))
  rw [hrole] at hopening
  unfold convertMessage at hstep
  rw [hrole] at hstep
  by_cases hsystem : m.role = "system"
  · rw [if_pos (show isSystem (m :: rest) = true from decide_eq_true hsystem)]
    rw [if_pos hsystem] at hstep
    cases hstep
    refine ⟨rfl, rfl, _, rfl, ?_⟩
    rw [← systemTexts_run h hsystem]
    exact .texts _
  · rw [if_neg (show ¬ isSystem (m :: rest) = true from fun hs => hsystem (of_decide_eq_true hs))]
    rw [if_neg hsystem] at hstep
    by_cases htool : m.role = "tool"
    · rw [if_pos htool] at hstep
      cases hstep
      refine ⟨rfl, rfl, [.toolResult m.toolCallId (fill m.content)], ?_, ?_⟩
      · have hrest : rest = [] := by
          cases rest with
          | nil => rfl
          | cons b rest =>
              exact absurd htool (mem_tail_of_isChain h.chain b List.mem_cons_self).2.1
        have hid : (formatted m m.content).toolCallId = m.toolCallId := if_pos htool
        rw [addResult_pieces, hopening, List.append_assoc, hrest, runMessage_singleton, hid]
        rfl
      · dsimp only [runPieces]
        rw [if_pos htool]
        exact .single (.output _ _)
    · rw [if_neg htool] at hstep
      obtain ⟨content, hcontent, hstep⟩ := bind_ok hstep
      cases hstep
      refine ⟨rfl, rfl, contentPieces content, ?_, messageContent_carries h hsystem htool hcontent⟩
      unfold messagePieces at hopening ⊢
      rw [List.flatMap_append, hopening, List.append_assoc, List.flatMap_singleton]

theorem openingPieces_concat (rs : List (List Message)) (run : List Message) :
    openingPieces (rs ++ [run]) = openingPieces rs ++
      ((dots rs.isEmpty (runRole run)).map .text) := by
  cases rs with
  | nil =>
      unfold dots
      by_cases hrole : runRole run = "user"
      · simp [openingPieces, hrole]
      · simp [openingPieces, hrole]
  | cons r rs => simp [openingPieces, dots]

theorem otherPieces_concat (others : List (List Message)) (run : List Message) :
    otherPieces host (others ++ [run]) = otherPieces host others ++
      ((dots others.isEmpty (runRole run)).map .text ++ runPieces host run) := by
  unfold otherPieces
  rw [openingPieces_concat, List.flatMap_append, List.flatMap_singleton]
  cases others with
  | nil => simp [openingPieces]
  | cons r others => simp [dots]

/-- What the second pass sends of runs. -/
theorem second_carries {rs : List (List Message)} (hrs : ∀ run ∈ rs, IsRun run) {s : Second J}
    (hs : (rs.map runMessage).foldlM (convertMessage host) ⟨[], [], true⟩ = .ok s) :
    s.isFirstMessage = (rs.filter fun run => !isSystem run).isEmpty ∧
      Carries host ((rs.filter isSystem).flatMap (runPieces host)) (s.system.map .text) ∧
      Carries host (otherPieces host (rs.filter fun run => !isSystem run))
        (messagePieces s.messages) := by
  induction rs using List.reverseRecOn generalizing s with
  | nil =>
      cases hs
      exact ⟨rfl, .nil, .nil⟩
  | append_singleton rs run ih =>
      rw [List.map_append, List.foldlM_append] at hs
      obtain ⟨s₁, hs₁, hstep⟩ := bind_ok hs
      obtain ⟨s₂, hstep, hend⟩ := bind_ok hstep
      cases hend
      obtain ⟨hfirst, hsystem, hothers⟩ := ih (fun r hr => hrs r (List.mem_append_left _ hr)) hs₁
      have hrun := hrs run (List.mem_append_right _ List.mem_cons_self)
      cases run with
      | nil => exact absurd rfl hrun.nonempty
      | cons m rest =>
          have hsent := convertMessage_carries hrun hstep
          rw [List.filter_append, List.filter_append]
          cases hrole : isSystem (m :: rest) with
          | true =>
              rw [hrole, if_pos rfl] at hsent
              obtain ⟨hsame, hmessages, system, hadded, hcarries⟩ := hsent
              rw [List.filter_singleton, List.filter_singleton, hrole, hsame, hmessages, hadded,
                List.map_append]
              simp only [Bool.not_true, cond_true, cond_false, List.append_nil,
                List.flatMap_append, List.flatMap_singleton]
              exact ⟨hfirst, hsystem.append hcarries, hothers⟩
          | false =>
              rw [hrole, if_neg (by decide)] at hsent
              obtain ⟨hnext, hsame, sent, hmessages, hcarries⟩ := hsent
              rw [List.filter_singleton, List.filter_singleton, hrole, hnext, hsame, hmessages]
              simp only [Bool.not_false, cond_true, cond_false, List.append_nil]
              rw [otherPieces_concat, hfirst]
              refine ⟨?_, hsystem, hothers.append ((Carries.texts _).append hcarries)⟩
              simp

/-! ### No panic -/

theorem bind_no_panic {α β : Type} {x : Except Failure α} {f : α → Except Failure β}
    (hx : x ≠ .error .panic) (hf : ∀ a, f a ≠ .error .panic) : (x >>= f) ≠ .error .panic := by
  cases x with
  | error e =>
      intro h
      exact hx (congrArg Except.error (Except.error.inj h))
  | ok a => exact hf a

theorem collect_no_panic {α β : Type} {f : α → Except Failure (List β)}
    (hf : ∀ a, f a ≠ .error .panic) (l : List α) : collect f l ≠ .error .panic := by
  induction l with
  | nil => simp [collect]
  | cons a l ih =>
      unfold collect
      refine bind_no_panic (hf a) fun first => bind_no_panic ih fun rest => ?_
      simp [pure, Except.pure]

theorem sourceBlock_no_panic (source : Option FileSource) :
    sourceBlock host source ≠ .error .panic := by
  unfold sourceBlock
  split
  · simp
  · split <;> simp

theorem mediaBlock_no_panic (part : MediaPart) : mediaBlock host part ≠ .error .panic := by
  cases part with
  | text s => simp [mediaBlock]
  | file fileName fileData =>
      dsimp only [mediaBlock]
      split
      · simp
      · split
        · simp
        · exact sourceBlock_no_panic _
  | other source => exact sourceBlock_no_panic source

theorem toolUseBlock_no_panic (call : ToolCall) :
    ((toolUseBlock host call).map fun b => [b]) ≠ .error .panic := by
  unfold toolUseBlock
  split
  · split <;> simp [Except.map]
  · simp [Except.map]

theorem convertMessage_no_panic (s : Second J) (m : Message) :
    convertMessage host s m ≠ .error .panic := by
  unfold convertMessage
  split
  · simp
  split
  · simp
  · refine bind_no_panic ?_ fun content => by simp [pure, Except.pure]
    unfold messageContent
    split
    · simp
    · refine bind_no_panic (collect_no_panic mediaBlock_no_panic _) fun media => ?_
      refine bind_no_panic (collect_no_panic toolUseBlock_no_panic _) fun uses => ?_
      simp [pure, Except.pure]

theorem foldlM_no_panic (messages : List Message) (s : Second J) :
    messages.foldlM (convertMessage host) s ≠ .error .panic := by
  induction messages generalizing s with
  | nil => simp [pure, Except.pure]
  | cons m messages ih =>
      rw [List.foldlM_cons]
      exact bind_no_panic (convertMessage_no_panic s m) ih

/-- A list of stop sequences that are strings. -/
def StringsOnly (stop : Stop J) : Prop := ∀ l, stop = .list l → ∀ v ∈ l, ∃ s, v = .string s

theorem stopSequences_ok {stop : Stop J} (h : StringsOnly stop) :
    ∃ l, stopSequences stop = .ok l := by
  cases stop with
  | list l =>
      have hstrings := h l rfl
      clear h
      show ∃ r, stopStrings l = .ok r
      induction l with
      | nil => exact ⟨[], rfl⟩
      | cons v l ih =>
          obtain ⟨s, rfl⟩ := hstrings v List.mem_cons_self
          obtain ⟨r, hr⟩ := ih fun w hw => hstrings w (List.mem_cons_of_mem _ hw)
          refine ⟨s :: r, ?_⟩
          unfold stopStrings
          rw [hr]
          rfl
  | none => exact ⟨[], rfl⟩
  | string s => exact ⟨[s], rfl⟩
  | other j => exact ⟨[], rfl⟩

variable (host) in
/-- **Main.**  With stop sequences that are strings, and messages that are joined without a loss,
the conversion does not panic, and what it returns carries the pieces of the system messages and
then those of the other messages, each once and in their order, and nothing else. -/
theorem conversation_carried (textRequest : GeneralOpenAIRequest J)
    (hstop : StringsOnly textRequest.stop) (hclean : Clean textRequest.messages) :
    requestOpenAI2ClaudeMessage host textRequest ≠ .error .panic ∧
      ∀ out, requestOpenAI2ClaudeMessage host textRequest = .ok out →
        Carries host (pieces host textRequest.messages) (contents out) := by
  obtain ⟨stop, hstrings⟩ := stopSequences_ok hstop
  unfold requestOpenAI2ClaudeMessage
  rw [hstrings]
  constructor
  · refine bind_no_panic (by simp) fun _ => bind_no_panic (foldlM_no_panic _ _) fun s => ?_
    simp [pure, Except.pure]
  · intro out h
    obtain ⟨_, -, h⟩ := bind_ok h
    obtain ⟨s, hs, h⟩ := bind_ok h
    cases h
    rw [formatMessages_runs hclean] at hs
    obtain ⟨-, hsystem, hothers⟩ := second_carries (fun _ => isRun_of_mem hclean) hs
    exact hsystem.append hothers

end second

/-! ### Concrete requests -/

/-- A host with the MIME type of one extension, whose objects are all the same. -/
def plainHost : Host Unit :=
  ⟨fun extension => if extension = "txt" then "text/plain" else "application/octet-stream",
    fun data => if data = "bg==" then some "n" else none, fun _ => .error "", (), fun _ => .ok ()⟩

/-- A message with a call. -/
def calling (role id : String) : Message := ⟨role, .null, some [⟨id, "f", ""⟩], ""⟩

def saying (role text : String) : Message := ⟨role, .string text, none, ""⟩

/-- A conversation that begins with the assistant: a question behind an empty one, with quotation
marks inside, a call, its output, a system message, and parts with an attached text. -/
def conversation : GeneralOpenAIRequest Unit :=
  ⟨.list [.string "end"], [saying "assistant" "h", saying "user" "", saying "user" "\"a\" b",
    saying "user" "", saying "user" "c", saying "assistant" "d", calling "assistant" "x",
    ⟨"tool", .string "r", none, "x"⟩, saying "system" "s",
    ⟨"user", .parts [.text "e", .text "", .file "n.txt" "bg==", .other none, .text "g"], none, ""⟩]⟩

/-- The conversation is carried. -/
theorem conversation_carried_conversation :
    ∃ out, requestOpenAI2ClaudeMessage plainHost conversation = .ok out ∧
      Carries plainHost [.text "s", .text "...", .text "h", .text "... \"a\" b  c", .text "d",
        .text "...", .call "x" "f" "", .output "x" (.string "r"), .text "e", .text "n", .text "g"]
        (contents out) := by
  have hstop : StringsOnly conversation.stop := by
    simp [StringsOnly, conversation]
  have hclean : Clean conversation.messages := by
    decide +kernel
  refine ⟨_, rfl, ?_⟩
  exact (conversation_carried plainHost conversation hstop hclean).2 _ rfl

/-- A system message behind a call is sent before it: no part of what is sent carries the call and
then the text. -/
theorem system_sent_first :
    ∃ out, requestOpenAI2ClaudeMessage plainHost
        ⟨.none, [calling "assistant" "x", saying "system" "s"]⟩ = .ok out ∧
      ¬ ∃ outs, outs.Sublist (contents out) ∧
        Carries plainHost [.call "x" "f" "", .text "s"] outs := by
  refine ⟨_, rfl, ?_⟩
  rintro ⟨outs, hsub, hcarries⟩
  cases hcarries with
  | cons hcall hrest =>
      cases hcall with
      | @call _ _ _ input _ =>
          cases hrest with
          | cons htext hnil =>
              cases htext
              cases hnil
              cases input
              exact absurd hsub (by decide +kernel)

end MaxApi.Convert.ToClaude
