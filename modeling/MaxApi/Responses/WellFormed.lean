import MaxApi.Lib.Quoting
import MaxApi.Responses.MissingName

/-! # Responses: when the stream is in order

The events of a stream are in order exactly if there is a chunk at all, no delta of a text arrives
after a finish reason has closed that text, and no tool call clashes with its announcement in a
chunk that has shown something before (`wellFormed_iff`). -/

namespace MaxApi.Responses

open Dto

variable (codec : ArgumentsCodec) {s : StreamState}

/-! ### The end -/

/-- Where all items are done, so are those of the reader. -/
theorem view_done (hs : Sound s)
    (hparts : ∀ p : Part, (p.item s).started = true → (p.item s).done = true)
    (htools : ∀ k tool, findTool s.tools k = some tool → tool.done = true)
    (status : ResponseStatus) :
    ∀ ref ∈ s.outputOrder, ((view codec s ref).closed = true ∧ (view codec s ref).done = true) ∧
      ∃ item, refOutput codec s status ref = some item ∧
        Carries codec item (view codec s ref).deltas := by
  have hpart : ∀ p : Part, p.ref ∈ s.outputOrder → (p.item s).done = true := by
    intro p hp
    cases hstarted : (p.item s).started with
    | true => exact hparts p hstarted
    | false => exact absurd hp (hs.fresh p hstarted).1
  intro ref href
  cases ref with
  | message =>
      have hdone := hpart .message href
      exact ⟨⟨hdone, hdone⟩, _, rfl, output_carries codec s .message status⟩
  | reasoning =>
      have hdone := hpart .reasoning href
      exact ⟨⟨hdone, hdone⟩, _, rfl, output_carries codec s .reasoning status⟩
  | tool k =>
      obtain ⟨tool, hfind, -⟩ := hs.listed k href
      have hdone := htools k tool hfind
      rw [view_tool codec s hfind, toolView_closed codec hdone]
      refine ⟨⟨rfl, rfl⟩, toolOutput codec tool status, ?_, toolOutput_carries codec tool status⟩
      unfold refOutput
      dsimp only
      rw [hfind]
      rfl

theorem forall₂_filterMap {α β γ : Type} {R : β → γ → Prop} {f : α → Option β} {g : α → γ} :
    ∀ {l : List α}, (∀ a ∈ l, ∃ b, f a = some b ∧ R b (g a)) →
      List.Forall₂ R (l.filterMap f) (l.map g)
  | [], _ => .nil
  | a :: l, h => by
      obtain ⟨b, hb, hR⟩ := h a List.mem_cons_self
      rw [List.filterMap_cons, hb, List.map_cons]
      exact .cons hR (forall₂_filterMap fun c hc => h c (List.mem_cons_of_mem a hc))

/-- The stream ends, and every event has been in order. -/
def Ends (r : Reader) (events : List ResponsesStreamEvent) : Prop :=
  ∃ r', acceptAll codec r events = some r' ∧ r'.finished = true

theorem ends_append {r : Reader} {as bs : List ResponsesStreamEvent} :
    Ends codec r (as ++ bs) ↔ ∃ r', acceptAll codec r as = some r' ∧ Ends codec r' bs := by
  unfold Ends
  rw [acceptAll_append]
  cases acceptAll codec r as with
  | none => exact ⟨fun ⟨_, h, _⟩ => (nomatch h), fun ⟨_, h, _⟩ => (nomatch h)⟩
  | some r₁ => exact ⟨fun h => ⟨r₁, rfl, h⟩, fun ⟨_, h, hend⟩ => Option.some.inj h ▸ hend⟩

/-- The terminal event of a state. -/
def terminalEvent (s : StreamState) : ResponsesStreamEvent :=
  if s.status = .incomplete then .incomplete (finalResponse codec { s with finalized := true })
  else .completed (finalResponse codec { s with finalized := true })

theorem finalize_events (hs : Sound s) :
    (finalizeChatCompletionsStreamToResponses codec s).2 =
      (doneDeltaEvents codec s).2 ++ [terminalEvent codec (doneDeltaEvents codec s).1] := by
  unfold finalizeChatCompletionsStreamToResponses terminalEvent
  rw [if_neg (by rw [hs.running]; exact Bool.false_ne_true)]

theorem accept_terminal (r : Reader) {event : ResponsesStreamEvent}
    {response : OpenAIResponsesResponse}
    (h : event = .completed response ∨ event = .incomplete response) :
    accept codec r event =
      if r.created = true ∧ r.finished = false then r.readTerminal codec response else none := by
  unfold accept
  by_cases hfinished : r.finished = true
  · rw [if_pos hfinished, if_neg fun hc => Bool.false_ne_true (hc.2.symm.trans hfinished)]
  rw [if_neg hfinished]
  by_cases hcreated : r.created = true
  · rw [if_pos hcreated, if_pos ⟨hcreated, Bool.not_eq_true _ ▸ hfinished⟩]
    obtain rfl | rfl := h <;> rfl
  · rw [if_neg hcreated, if_neg fun hc => hcreated hc.1]
    obtain rfl | rfl := h <;> rfl

/-- A terminal event ends the stream if its response has the items that have been read. -/
theorem ends_terminal (r : Reader) (s : StreamState) :
    Ends codec r [terminalEvent codec s] ↔ r.Open ∧
      (∀ v ∈ r.items, v.closed = true ∧ v.done = true) ∧
        List.Forall₂ (Carries codec) (finalResponse codec { s with finalized := true }).output
          (r.items.map (·.deltas)) := by
  have hevent : terminalEvent codec s =
        .completed (finalResponse codec { s with finalized := true }) ∨
      terminalEvent codec s = .incomplete (finalResponse codec { s with finalized := true }) := by
    unfold terminalEvent
    split_ifs
    · exact .inr rfl
    · exact .inl rfl
  unfold Ends
  rw [acceptAll_cons, accept_terminal codec r hevent]
  constructor
  · intro ⟨r', haccept, hfinished⟩
    obtain ⟨r₁, hread, hrest⟩ := Option.bind_eq_some_iff.mp haccept
    split_ifs at hread with hopen
    exact ⟨hopen, (readTerminal_some.mp hread).1⟩
  · intro ⟨hopen, hitems⟩
    refine ⟨{ r with finished := true }, ?_, rfl⟩
    rw [if_pos ⟨hopen.1, hopen.2⟩, readTerminal_some.mpr ⟨hitems, rfl⟩]
    rfl

/-- A state with a response ends in order. -/
theorem ends_finalize (hs : Sound s) (hcreated : s.sentCreated = true) :
    Ends codec (reader codec s) (finalizeChatCompletionsStreamToResponses codec s).2 := by
  have hclosing := doneDeltaEvents_closing codec hs hcreated
  rw [finalize_events codec hs, ends_append]
  generalize doneDeltaEvents codec s = result at *
  have hsound := hclosing.emission.sound
  refine ⟨_, hclosing.emission.accepted id, ?_⟩
  rw [ends_terminal]
  have hview := view_done codec hsound
    (fun p hp => hclosing.done p ((hclosing.started p).symm.trans hp))
    (fun _ _ hfind => hclosing.tools_done codec hfind) (outputStatus result.1.status)
  refine ⟨hsound.open codec hclosing.emission.created, fun v hv => ?_, ?_⟩
  · obtain ⟨ref, href, rfl⟩ := List.mem_map.mp hv
    exact (hview ref href).1
  · unfold finalResponse reader
    dsimp only
    rw [List.map_map]
    exact forall₂_filterMap fun ref href => (hview ref href).2

/-- A reader who has missed something does not end. -/
theorem not_ends_behind (hs : Sound s) (hcreated : s.sentCreated = true) {r : Reader}
    (hbehind : r.weight < (reader codec s).weight) :
    ¬Ends codec r (finalizeChatCompletionsStreamToResponses codec s).2 := by
  intro hends
  have hown := ends_finalize codec hs hcreated
  have hclosing := doneDeltaEvents_closing codec hs hcreated
  rw [finalize_events codec hs, ends_append] at hends hown
  obtain ⟨r₁, hread, hterminal⟩ := hends
  obtain ⟨r₂, hread₂, hterminal₂⟩ := hown
  obtain ⟨hopen, hdone, hitems⟩ := (ends_terminal codec r₁ _).mp hterminal
  obtain ⟨hopen₂, hdone₂, hitems₂⟩ := (ends_terminal codec r₂ _).mp hterminal₂
  have heq := items_eq hdone hdone₂ hitems hitems₂
  have hweight := acceptAll_weight hread
  have hweight₂ := acceptAll_weight hread₂
  have hsame : r₁.weight = r₂.weight := by
    unfold Reader.weight
    rw [heq, hopen.1, hopen₂.1]
  omega

/-! ### Runs -/

theorem streamEvents_cons (s : StreamState) (chunk : ChatCompletionsStreamResponse)
    (chunks : List ChatCompletionsStreamResponse) :
    streamEvents codec s (chunk :: chunks) =
      (chatCompletionsStreamChunkToResponsesEvents codec s chunk).2 ++
        streamEvents codec (chunkStep codec s chunk) chunks := rfl

theorem not_ends_streamEvents :
    ∀ (chunks : List ChatCompletionsStreamResponse) {s : StreamState} {r : Reader}, Sound s →
      s.sentCreated = true → r.weight < (reader codec s).weight →
      ¬Ends codec r (streamEvents codec s chunks)
  | [], _, _, hs, hcreated, hbehind => not_ends_behind codec hs hcreated hbehind
  | chunk :: chunks, s, r, hs, hcreated, hbehind => by
      have hchunk := chunk_emission codec hs chunk
      rw [streamEvents_cons, ends_append]
      intro ⟨r', haccept, hends⟩
      have hweight := acceptAll_weight haccept
      have hgain := hchunk.weight
      exact not_ends_streamEvents chunks hchunk.sound hchunk.created (by omega) hends

theorem ends_cons (hs : Sound s) (chunk : ChatCompletionsStreamResponse)
    (chunks : List ChatCompletionsStreamResponse) :
    Ends codec (reader codec s) (streamEvents codec s (chunk :: chunks)) ↔
      Orderly codec s chunk ∧ Ends codec (reader codec (chunkStep codec s chunk))
        (streamEvents codec (chunkStep codec s chunk) chunks) := by
  have hchunk := chunk_emission codec hs chunk
  rw [streamEvents_cons, ends_append]
  constructor
  · intro ⟨r, haccept, hends⟩
    by_cases horderly : Orderly codec s chunk
    · rw [hchunk.accepted horderly] at haccept
      cases haccept
      exact ⟨horderly, hends⟩
    · obtain hnone | hbehind := hchunk.refused horderly
      · rw [hnone] at haccept
        cases haccept
      · have hweight := acceptAll_weight haccept
        refine absurd hends ?_
        exact not_ends_streamEvents codec chunks hchunk.sound hchunk.created (by
          rw [hweight]
          exact hbehind)
  · intro ⟨horderly, hends⟩
    exact ⟨_, hchunk.accepted horderly, hends⟩

/-- The events after the first chunk, for a reader who has missed nothing. -/
theorem ends_streamEvents :
    ∀ (chunks : List ChatCompletionsStreamResponse) {s : StreamState}, Sound s →
      s.sentCreated = true →
      (Ends codec (reader codec s) (streamEvents codec s chunks) ↔
        Transition.Throughout (chunkStep codec) (Orderly codec) s chunks)
  | [], _, hs, hcreated => ⟨fun _ => trivial, fun _ => ends_finalize codec hs hcreated⟩
  | chunk :: chunks, s, hs, _ => by
      have hchunk := chunk_emission codec hs chunk
      exact (ends_cons codec hs chunk chunks).trans
        (and_congr_right fun _ => ends_streamEvents chunks hchunk.sound hchunk.created)

/-! ### The whole -/

/-- Once a missing name has been recorded, the response stays incomplete to the end. -/
def StaysIncomplete (s : StreamState) (chunks : List ChatCompletionsStreamResponse) : Prop :=
  ∀ before after, chunks = before ++ after →
    (Transition.run (chunkStep codec) s before).incompleteDetails = some "missing_tool_name" →
    (Transition.run (chunkStep codec) s chunks).status = .incomplete ∧
      ∃ events response, streamEvents codec s chunks = events ++ [.incomplete response] ∧
        response.status = .incomplete

theorem streamEvents_terminal :
    ∀ (chunks : List ChatCompletionsStreamResponse) {s : StreamState}, Sound s →
      ∃ events, streamEvents codec s chunks = events ++
        [terminalEvent codec
          (doneDeltaEvents codec (Transition.run (chunkStep codec) s chunks)).1]
  | [], s, hs => ⟨_, finalize_events codec hs⟩
  | chunk :: chunks, s, hs => by
      obtain ⟨events, hevents⟩ :=
        streamEvents_terminal chunks (chunk_emission codec hs chunk).sound
      refine ⟨(chatCompletionsStreamChunkToResponsesEvents codec s chunk).2 ++ events, ?_⟩
      rw [streamEvents_cons, List.append_assoc]
      exact congrArg _ hevents

theorem newStreamState_recorded (id model : String) (created : ℤ)
    (customToolNames : List String) :
    Recorded (newStreamState id model created customToolNames) := nofun

/-- The status of the end is that of the last chunk. -/
theorem Nameless.terminal (hs : Sound s) (h : Nameless s) :
    ∃ response, terminalEvent codec (doneDeltaEvents codec s).1 = .incomplete response ∧
      response.status = .incomplete := by
  obtain ⟨hcreated, -, k, tool, hfind, -, hname⟩ := h
  have hstatus := (Nameless.done codec hs hcreated ⟨k, tool, hfind, hname⟩).2.1
  refine ⟨_, if_pos hstatus, hstatus⟩

theorem staysIncomplete (hs : Sound s) (hrecorded : Recorded s)
    (chunks : List ChatCompletionsStreamResponse) : StaysIncomplete codec s chunks := by
  intro before after hchunks hmissing
  have hbefore : Sound (Transition.run (chunkStep codec) s before) ∧
      Recorded (Transition.run (chunkStep codec) s before) :=
    Transition.run_invariant (chunkStep codec) (I := fun s => Sound s ∧ Recorded s)
      (fun s chunk h => ⟨(chunk_emission codec h.1 chunk).sound,
        (chunkStep_nameless codec h.1 chunk).2 h.2⟩) before s ⟨hs, hrecorded⟩
  have hall : Sound (Transition.run (chunkStep codec) s chunks) ∧
      Nameless (Transition.run (chunkStep codec) s chunks) := by
    rw [hchunks, Transition.run_append]
    exact Transition.run_invariant (chunkStep codec) (I := fun s => Sound s ∧ Nameless s)
      (fun s chunk h => ⟨(chunk_emission codec h.1 chunk).sound,
        (chunkStep_nameless codec h.1 chunk).1 h.2⟩) after _ ⟨hbefore.1, hbefore.2 hmissing⟩
  obtain ⟨events, hevents⟩ := streamEvents_terminal codec chunks hs
  obtain ⟨response, hterminal, hstatus⟩ := hall.2.terminal codec hall.1
  exact ⟨hall.2.2.1, events, response, by rw [hevents, hterminal], hstatus⟩

/-- **When the stream is in order.** -/
theorem wellFormed_iff (id model : String) (created : ℤ) (customToolNames : List String)
    (chunks : List ChatCompletionsStreamResponse) :
    (WellFormed codec
        (streamEvents codec (newStreamState id model created customToolNames) chunks) ∧
      StaysIncomplete codec (newStreamState id model created customToolNames) chunks) ↔
    chunks ≠ [] ∧ Transition.Throughout (chunkStep codec) (Orderly codec)
      (newStreamState id model created customToolNames) chunks := by
  have hs := Sound.newStreamState id model created customToolNames
  have hstays := staysIncomplete codec hs
    (newStreamState_recorded id model created customToolNames) chunks
  refine (and_iff_left hstays).trans ?_
  change Ends codec (reader codec (newStreamState id model created customToolNames)) _ ↔ _
  cases chunks with
  | nil =>
      refine ⟨fun h => ?_, fun h => absurd rfl h.1⟩
      change Ends codec _ (finalizeChatCompletionsStreamToResponses codec _).2 at h
      rw [finalize_events codec hs] at h
      exact absurd ((ends_terminal codec _ _).mp h).1.1 Bool.false_ne_true
  | cons chunk chunks =>
      have hchunk := chunk_emission codec hs chunk
      rw [ends_cons codec hs]
      refine Iff.trans ?_ (and_iff_right (List.cons_ne_nil chunk chunks)).symm
      exact and_congr_right fun _ => ends_streamEvents codec chunks hchunk.sound hchunk.created

/-- Strings are quoted, and one object has an input. -/
def plainCodec : ArgumentsCodec where
  marshal := Text.quote
  marshal_injective := Text.quote_injective
  inputField arguments :=
    if arguments = "\x7b\"input\":\"ls -l\"\x7d" then some "ls -l" else none

def textChunk (text : String) (finishReason : Option String) : ChatCompletionsStreamResponse :=
  ⟨"chatcmpl-1", "gpt", [⟨⟨some text, none, none, "", []⟩, finishReason⟩], none⟩

/-- Text after the finish reason: a delta of an item that is done. -/
theorem text_after_finish :
    ¬(WellFormed plainCodec (streamEvents plainCodec (newStreamState "resp-1" "gpt" 0 [])
        [textChunk "a" (some "stop"), textChunk "b" none]) ∧
      StaysIncomplete plainCodec (newStreamState "resp-1" "gpt" 0 [])
        [textChunk "a" (some "stop"), textChunk "b" none]) := by
  intro ⟨⟨r, hr, _⟩, _⟩
  have hnone : acceptAll plainCodec .initial
      (streamEvents plainCodec (newStreamState "resp-1" "gpt" 0 [])
        [textChunk "a" (some "stop"), textChunk "b" none]) = none := by decide +kernel
  rw [hnone] at hr
  cases hr

end MaxApi.Responses
