import MaxApi.Convert.ClaudeMessages
import Mathlib.Data.List.Induction
import Mathlib.Data.List.SplitBy

/-! # Conversions: runs of messages

The first pass of the conversion joins string messages of a role that follow each other.  The
messages fall into the runs that it joins (`runs`), and where no run loses calls or quotation marks
each run becomes one message with the text of the run (`formatMessages_runs`). -/

namespace MaxApi.Convert.ToClaude

open Text

/-! ### Splitting -/

/-- An element that belongs to the last part joins it. -/
theorem splitBy_concat {α : Type} {r : α → α → Bool} {l run : List α} {pre : List (List α)}
    {a m : α} (hl : l.splitBy r = pre ++ [run]) (ha : run.getLast? = some a) (h : r a m = true) :
    (l ++ [m]).splitBy r = pre ++ [run ++ [m]] := by
  obtain ⟨hflat, hnil, hchain, hseams⟩ := List.splitBy_eq_iff.mp hl
  have hrun : run ≠ [] := by
    rintro rfl
    cases ha
  refine List.splitBy_eq_iff.mpr ⟨by simp [hflat], ?_, ?_, ?_⟩
  · simp only [List.mem_append, List.mem_singleton, not_or] at hnil ⊢
    exact ⟨hnil.1, fun he => absurd he.symm (by simp)⟩
  · intro part hpart
    rcases List.mem_append.mp hpart with hpart | hpart
    · exact hchain part (List.mem_append_left _ hpart)
    · rw [List.mem_singleton.mp hpart]
      refine List.isChain_append.mpr ⟨hchain run (by simp), .singleton m, fun x hx y hy => ?_⟩
      obtain rfl : a = x := Option.some.inj (ha.symm.trans hx)
      obtain rfl : m = y := Option.some.inj hy
      exact h
  · obtain ⟨hpre, -, hseam⟩ := List.isChain_append.mp hseams
    refine List.isChain_append.mpr ⟨hpre, .singleton _, fun x hx y hy => ?_⟩
    obtain rfl : run ++ [m] = y := Option.some.inj hy
    obtain ⟨hx', _, hseam⟩ := hseam x hx run rfl
    exact ⟨hx', by simp, by rw [List.head_append_of_ne_nil hrun]; exact hseam⟩

/-! ### Runs -/

/-- `IsStringContent`. -/
def Content.isString : Content → Bool
  | .string _ => true
  | _ => false

/-- `StringContent`, of a string. -/
def Content.stringContent : Content → String
  | .string s => s
  | _ => ""

/-- The tool calls of an assistant message. -/
def assistantCalls (m : Message) : List ToolCall :=
  if m.role = "assistant" then m.toolCalls.getD [] else []

/-- A string message is joined to the message of its role before it, if that is a string or empty
and no tool message. -/
def joins (a b : Message) : Bool :=
  decide (a.role = b.role ∧ a.role ≠ "tool") && (fill a.content).isString && b.content.isString

/-- The messages, in the runs that are joined. -/
def runs (messages : List Message) : List (List Message) := messages.splitBy joins

/-- The role of a run. -/
def runRole : List Message → String
  | [] => ""
  | m :: _ => m.role

/-- The text of a run: the texts of its messages with one blank between each two, and dots for a
first one that is empty. -/
def runText : List Message → String
  | [] => ""
  | m :: rest =>
      " ".intercalate ((fill m.content).stringContent :: rest.map (·.content.stringContent))

/-- The content of a run; one that is no string is that of a single message. -/
def runContent : List Message → Content
  | [] => .null
  | m :: rest => if (fill m.content).isString then .string (runText (m :: rest)) else m.content

/-- The message of the second pass for a run. -/
def runMessage : List Message → Message
  | [] => ⟨"", .null, none, ""⟩
  | m :: rest => formatted (rest.getLastD m) (runContent (m :: rest))

/-- A run that is joined without a loss: only its last message has calls, and the joined texts have
no quotation mark at their ends. -/
@[mk_iff]
structure CleanRun (run : List Message) : Prop where
  calls : ∀ a ∈ run.dropLast, assistantCalls a = []
  start : run.tail ≠ [] → ∀ a ∈ run.head?, a.content.stringContent.toList.head? ≠ some '"'
  ends : ∀ a ∈ run.tail, a.content.stringContent.toList.getLast? ≠ some '"'

instance (run : List Message) : Decidable (CleanRun run) :=
  decidable_of_iff _ (cleanRun_iff run).symm

/-- Every run is joined without a loss. -/
def Clean (messages : List Message) : Prop := ∀ run ∈ runs messages, CleanRun run

instance (messages : List Message) : Decidable (Clean messages) :=
  inferInstanceAs (Decidable (∀ run ∈ runs messages, CleanRun run))

/-- The messages of a run after the first one. -/
theorem mem_tail_of_isChain {m : Message} {rest : List Message}
    (h : (m :: rest).IsChain fun a b => joins a b) :
    ∀ b ∈ rest, b.role = m.role ∧ m.role ≠ "tool" ∧ (fill m.content).isString = true ∧
      b.content.isString = true := by
  induction rest generalizing m with
  | nil => exact fun b hb => absurd hb List.not_mem_nil
  | cons c rest ih =>
      obtain ⟨hjoins, hrest⟩ := List.isChain_cons_cons.mp h
      simp only [joins, Bool.and_eq_true, decide_eq_true_eq] at hjoins
      obtain ⟨⟨⟨hrole, htool⟩, hm⟩, hc⟩ := hjoins
      intro b hb
      rcases List.mem_cons.mp hb with rfl | hb
      · exact ⟨hrole.symm, htool, hm, hc⟩
      · obtain ⟨hb, -, -, hstring⟩ := ih hrest b hb
        exact ⟨hb.trans hrole.symm, htool, hm, hstring⟩

theorem isString_iff {content : Content} :
    content.isString = true ↔ content = .string content.stringContent := by
  cases content with
  | string s => simp [Content.isString, Content.stringContent]
  | null | parts _ => simp [Content.isString]

theorem isString_fill {content : Content} (h : content.isString = true) :
    (fill content).isString = true := by
  cases content with
  | string s =>
      dsimp only [fill]
      split_ifs <;> rfl
  | null | parts _ => cases h

/-- A content that is no string after it is filled is one of parts. -/
theorem parts_of_fill {content : Content} (h : ¬ (fill content).isString = true) :
    ∃ l, content = .parts l := by
  cases content with
  | parts l => exact ⟨l, rfl⟩
  | null => exact absurd rfl h
  | string s => exact absurd (isString_fill rfl) h

theorem fill_stringContent_ne_empty {content : Content} (h : (fill content).isString = true) :
    (fill content).stringContent ≠ "" := by
  cases content with
  | null => decide
  | string s =>
      dsimp only [fill]
      by_cases hs : s = ""
      · rw [if_pos hs]
        decide
      · rw [if_neg hs]
        exact hs
  | parts l => cases h

/-- The text of a run begins with that of its first message. -/
theorem runText_cons (m : Message) (rest : List Message) :
    ∃ t, runText (m :: rest) = (fill m.content).stringContent ++ t := by
  dsimp only [runText]
  by_cases hrest : rest = []
  · rw [hrest]
    exact ⟨"", by simp⟩
  · have hmap : rest.map (·.content.stringContent) ≠ [] := fun h => hrest (List.map_eq_nil_iff.mp h)
    rw [String.intercalate_cons_of_ne_nil hmap, String.append_assoc]
    exact ⟨_, rfl⟩

theorem runText_ne_empty {m : Message} (h : (fill m.content).isString = true)
    (rest : List Message) : runText (m :: rest) ≠ "" := by
  obtain ⟨t, ht⟩ := runText_cons m rest
  rw [ht]
  intro hempty
  exact fill_stringContent_ne_empty h (String.append_eq_empty_iff.mp hempty).1

/-- A message that is joined adds its text behind a blank. -/
theorem runText_concat (m b : Message) (rest : List Message) :
    runText (m :: (rest ++ [b])) = runText (m :: rest) ++ " " ++ b.content.stringContent := by
  dsimp only [runText]
  rw [List.map_append, ← List.cons_append, List.map_singleton,
    String.intercalate_append_of_ne_nil (List.cons_ne_nil _ _) (List.cons_ne_nil _ _),
    String.intercalate_singleton]

theorem fill_runContent {m : Message} (h : (fill m.content).isString = true)
    (rest : List Message) :
    fill (runContent (m :: rest)) = .string (runText (m :: rest)) := by
  dsimp only [runContent]
  rw [if_pos h]
  exact if_neg (runText_ne_empty h rest)

theorem runContent_parts {m : Message} (h : ¬ (fill m.content).isString = true)
    (rest : List Message) : runContent (m :: rest) = m.content := by
  unfold runContent
  exact if_neg h

theorem mem_getLastD (m : Message) (rest : List Message) :
    rest.getLastD m = m ∨ rest.getLastD m ∈ rest := by
  cases rest with
  | nil => exact .inl rfl
  | cons b rest =>
      right
      rw [List.getLastD_eq_getLast?, List.getLast?_cons]
      simp only [Option.getD_some]
      rcases h : rest.getLast? with - | c
      · exact List.mem_cons_self
      · exact List.mem_cons_of_mem _ (List.mem_of_getLast? h)

theorem runMessage_role {m : Message} {rest : List Message}
    (h : (m :: rest).IsChain fun a b => joins a b) : (runMessage (m :: rest)).role = m.role := by
  show (rest.getLastD m).role = m.role
  rcases mem_getLastD m rest with hlast | hlast
  · rw [hlast]
  · exact (mem_tail_of_isChain h _ hlast).1

/-! ### The first pass -/

/-- Quotation marks are not trimmed from a text that has none at its ends. -/
theorem trimQuotes_eq {s : String} (hhead : s.toList.head? ≠ some '"')
    (hlast : s.toList.getLast? ≠ some '"') : trimQuotes s = s := by
  unfold trimQuotes trim
  have hdrop : s.toList.dropWhile (· == '"') = s.toList := by
    cases hs : s.toList with
    | nil => rfl
    | cons c l =>
        rw [hs] at hhead
        have hc : ¬ (c == '"') = true := by simpa using hhead
        exact List.dropWhile_cons_of_neg hc
  rw [hdrop]
  have hrdrop : s.toList.rdropWhile (· == '"') = s.toList := by
    rw [List.rdropWhile_eq_self_iff]
    intro hne hc
    rw [List.getLast?_eq_some_getLast hne] at hlast
    exact hlast (by simpa using hc)
  rw [hrdrop, String.ofList_toList]

theorem head_fill {content : Content} (h : content.stringContent.toList.head? ≠ some '"') :
    (fill content).stringContent.toList.head? ≠ some '"' := by
  cases content with
  | null => decide
  | string s =>
      dsimp only [fill]
      by_cases hs : s = ""
      · rw [if_pos hs]
        decide
      · rw [if_neg hs]
        exact h
  | parts l => exact h

/-- Nothing is trimmed from a clean run. -/
theorem trimQuotes_run {m b : Message} {rest : List Message}
    (hm : (fill m.content).isString = true) (hclean : CleanRun (m :: (rest ++ [b]))) :
    trimQuotes (runText (m :: (rest ++ [b]))) = runText (m :: (rest ++ [b])) := by
  apply trimQuotes_eq
  · obtain ⟨t, ht⟩ := runText_cons m (rest ++ [b])
    have hhead := head_fill (hclean.start (by simp) m rfl)
    have hne := fill_stringContent_ne_empty hm
    rw [ht, String.toList_append]
    cases hchars : (fill m.content).stringContent.toList with
    | nil => exact absurd (String.toList_inj.mp hchars) hne
    | cons c l =>
        rw [hchars] at hhead
        exact hhead
  · have hlast := hclean.ends b (by simp)
    rw [runText_concat, String.toList_append, String.toList_append, List.append_assoc,
      List.getLast?_append, List.getLast?_append]
    cases hchars : b.content.stringContent.toList.getLast? with
    | none => exact fun hblank => absurd (Option.some.inj hblank) (by decide)
    | some c =>
        rw [hchars] at hlast
        exact hlast

/-- Whether the next message is joined to the message of a run. -/
theorem joined_run {m b : Message} {rest : List Message}
    (hrun : (m :: rest).IsChain fun a b => joins a b)
    (hclean : joins (rest.getLastD m) b = true → CleanRun (m :: (rest ++ [b]))) :
    joined (runMessage (m :: rest)) b =
      if joins (rest.getLastD m) b then some (runContent (m :: (rest ++ [b]))) else none := by
  have hrole : (rest.getLastD m).role = m.role := runMessage_role hrun
  have hstring : (fill (rest.getLastD m).content).isString = (fill m.content).isString := by
    rcases mem_getLastD m rest with hlast | hlast
    · rw [hlast]
    · obtain ⟨-, -, hm, hlast⟩ := mem_tail_of_isChain hrun _ hlast
      rw [hm, isString_fill hlast]
  have hjoins : joins (rest.getLastD m) b = true ↔
      (m.role = b.role ∧ m.role ≠ "tool") ∧ (fill m.content).isString = true ∧
        b.content.isString = true := by
    simp only [joins, hrole, hstring, Bool.and_eq_true, decide_eq_true_eq, and_assoc]
  have hcontent : (runMessage (m :: rest)).content = fill (runContent (m :: rest)) := rfl
  unfold joined
  rw [runMessage_role hrun, hcontent]
  by_cases hroles : m.role = b.role ∧ m.role ≠ "tool"
  · rw [if_pos hroles]
    by_cases hm : (fill m.content).isString = true
    · rw [fill_runContent hm]
      cases hb : b.content with
      | string t =>
          have hjoin := hjoins.mpr ⟨hroles, hm, by rw [hb]; rfl⟩
          have htrim := trimQuotes_run hm (hclean hjoin)
          rw [runText_concat, hb] at htrim
          rw [if_pos hjoin, runContent, if_pos hm, runText_concat, hb]
          exact congrArg (fun s => some (Content.string s)) htrim
      | null | parts _ =>
          rw [if_neg fun hjoin => by simpa [hb, Content.isString] using (hjoins.mp hjoin).2.2]
    · obtain ⟨l, hl⟩ := parts_of_fill hm
      rw [runContent_parts hm, if_neg fun hjoin => hm (hjoins.mp hjoin).2.1, hl]
      rfl
  · rw [if_neg hroles, if_neg fun hjoin => hroles (hjoins.mp hjoin).1]

/-- The state of the first pass after some messages. -/
def First (messages : List Message) (acc : List Message × Message) : Prop :=
  acc.1 = (runs messages).map runMessage ∧
    match (runs messages).getLast? with
    | none => acc.2.role = "tool"
    | some run => acc.2 = runMessage run

theorem first_of_concat {messages : List Message} {acc : List Message × Message}
    {pre : List (List Message)} {run : List Message} (hruns : runs messages = pre ++ [run])
    (hmessages : acc.1 = pre.map runMessage ++ [runMessage run]) (hlast : acc.2 = runMessage run) :
    First messages acc := by
  unfold First
  rw [hruns, List.map_append, List.getLast?_concat]
  exact ⟨hmessages, hlast⟩

theorem CleanRun.init {run : List Message} {b : Message} (h : CleanRun (run ++ [b])) :
    CleanRun run where
  calls a ha := by
    apply h.calls
    rw [List.dropLast_concat]
    exact List.dropLast_subset run ha
  start hne a ha := by
    cases run with
    | nil => cases ha
    | cons m rest => exact h.start (by simp) a ha
  ends a ha := by
    cases run with
    | nil => exact absurd ha List.not_mem_nil
    | cons m rest => exact h.ends a (List.mem_append_left _ ha)

/-- A message begins a run, or joins the last one. -/
theorem runs_concat (messages : List Message) (b : Message) :
    (runs messages = [] ∧ runs (messages ++ [b]) = [[b]]) ∨
      ∃ pre m rest, runs messages = pre ++ [m :: rest] ∧
        (m :: rest).IsChain (fun a b => joins a b) ∧
          runs (messages ++ [b]) = if joins (rest.getLastD m) b then pre ++ [m :: (rest ++ [b])]
            else pre ++ [m :: rest, [b]] := by
  unfold runs
  rcases List.eq_nil_or_concat (messages.splitBy joins) with hnil | ⟨pre, run, hsplit⟩
  · obtain rfl := List.splitBy_eq_nil.mp hnil
    exact .inl ⟨rfl, rfl⟩
  · rw [List.concat_eq_append] at hsplit
    have hmem : run ∈ messages.splitBy joins := by
      rw [hsplit]
      exact List.mem_append_right _ List.mem_cons_self
    cases run with
    | nil => exact absurd hmem (List.nil_notMem_splitBy joins messages)
    | cons m rest =>
        have hlast : (m :: rest).getLast? = some (rest.getLastD m) := by
          rw [List.getLast?_cons, List.getLastD_eq_getLast?]
        refine .inr ⟨pre, m, rest, hsplit, List.isChain_of_mem_splitBy hmem, ?_⟩
        by_cases hjoins : joins (rest.getLastD m) b = true
        · rw [if_pos hjoins]
          exact splitBy_concat hsplit hlast hjoins
        · rw [if_neg hjoins]
          have hmessages : messages.getLast? = some (rest.getLastD m) := by
            rw [(List.splitBy_eq_iff.mp hsplit).1, List.flatten_append, List.flatten_singleton,
              List.getLast?_append, hlast]
            rfl
          have hends : ∀ x ∈ messages.getLast?, joins x b = false := by
            intro x hx
            obtain rfl : rest.getLastD m = x := Option.some.inj (hmessages.symm.trans hx)
            exact Bool.eq_false_iff.mpr hjoins
          rw [List.splitBy_append_cons [] hends, hsplit, List.append_assoc]
          rfl

theorem Clean.init {messages : List Message} {b : Message} (h : Clean (messages ++ [b])) :
    Clean messages := by
  intro run hrun
  rcases runs_concat messages b with ⟨hnil, -⟩ | ⟨pre, m, rest, hruns, -, hconcat⟩
  · rw [hnil] at hrun
    exact absurd hrun List.not_mem_nil
  · unfold Clean at h
    rw [hconcat] at h
    rw [hruns] at hrun
    split at h
    · rcases List.mem_append.mp hrun with hrun | hrun
      · exact h run (List.mem_append_left _ hrun)
      · rw [List.mem_singleton.mp hrun]
        exact (h _ (List.mem_append_right _ List.mem_cons_self)).init
    · apply h
      rcases List.mem_append.mp hrun with hrun | hrun
      · exact List.mem_append_left _ hrun
      · rw [List.mem_singleton.mp hrun]
        exact List.mem_append_right _ List.mem_cons_self

/-- The message of a run of its own. -/
theorem runMessage_singleton (b : Message) : runMessage [b] = formatted b b.content := by
  have hfill : fill (runContent [b]) = fill b.content := by
    by_cases hb : (fill b.content).isString = true
    · have hcontent := fill_runContent hb []
      have htext : runText [b] = (fill b.content).stringContent := by
        dsimp only [runText]
        rw [List.map_nil, String.intercalate_singleton]
      rw [hcontent, htext, ← isString_iff.mp hb]
    · rw [runContent_parts hb]
  dsimp only [runMessage, formatted]
  rw [hfill]
  rfl

theorem runMessage_concat (m b : Message) (rest : List Message) :
    runMessage (m :: (rest ++ [b])) = formatted b (runContent (m :: (rest ++ [b]))) := by
  dsimp only [runMessage]
  rw [List.getLastD_concat]

/-- **A step** of the first pass. -/
theorem first_step {messages : List Message} {acc : List Message × Message} {b : Message}
    (h : First messages acc) (hclean : Clean (messages ++ [b])) :
    First (messages ++ [b]) (formatMessage acc b) := by
  obtain ⟨hmessages, hlast⟩ := h
  unfold formatMessage
  rcases runs_concat messages b with ⟨hnil, hconcat⟩ | ⟨pre, m, rest, hruns, hchain, hconcat⟩
  · rw [hnil] at hmessages hlast
    have hjoined : joined acc.2 b = none := by
      unfold joined
      exact if_neg fun hr => hr.2 hlast
    have hruns : runs (messages ++ [b]) = [] ++ [[b]] := hconcat
    rw [hjoined, hmessages, ← runMessage_singleton b]
    exact first_of_concat hruns rfl rfl
  · rw [hruns] at hmessages hlast
    rw [List.getLast?_concat] at hlast
    rw [List.map_append, List.map_singleton] at hmessages
    have hjoined := joined_run (b := b) hchain fun hjoins => by
      apply hclean
      rw [hconcat, if_pos hjoins]
      exact List.mem_append_right _ List.mem_cons_self
    dsimp only at hlast
    rw [hlast, hjoined]
    by_cases hjoins : joins (rest.getLastD m) b = true
    · rw [if_pos hjoins] at hconcat ⊢
      dsimp only
      rw [hmessages, List.dropLast_concat, ← runMessage_concat]
      exact first_of_concat hconcat rfl rfl
    · rw [if_neg hjoins, List.append_cons pre (m :: rest) [[b]]] at hconcat
      rw [if_neg hjoins]
      dsimp only
      rw [hmessages, ← runMessage_singleton]
      refine first_of_concat hconcat ?_ rfl
      rw [List.map_append, List.map_singleton]

/-- The first pass makes one message of each run. -/
theorem formatMessages_runs {messages : List Message} (hclean : Clean messages) :
    formatMessages messages = (runs messages).map runMessage := by
  have hfirst : ∀ ms, Clean ms →
      First ms (ms.foldl formatMessage ([], ⟨"tool", .null, none, ""⟩)) := by
    intro ms
    induction ms using List.reverseRecOn with
    | nil => exact fun _ => ⟨rfl, rfl⟩
    | append_singleton ms b ih =>
        intro hms
        rw [List.foldl_append]
        exact first_step (ih hms.init) hms
  exact (hfirst messages hclean).1

end MaxApi.Convert.ToClaude
