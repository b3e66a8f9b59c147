import MaxApi.Responses.DoneEmission

/-! # Responses: what a chunk emits

The events of a chunk lead a reader of the events before to the state after the chunk, if the chunk
is in order (`Orderly`).  Otherwise no reader accepts them, or the conversion has failed with events
that are never sent, and the reader falls behind the state. -/

namespace MaxApi.Responses

open Dto

variable (codec : ArgumentsCodec) {s : StreamState}

/-! ### Pieces -/

theorem convertPiece_clash {p : Piece} (h : Clash s p) :
    ∃ e, convertPiece codec s p = ⟨s, [], some e⟩ := by
  cases p with
  | part p delta => exact h.elim
  | finish reason => exact h.elim
  | toolCall toolCall =>
      obtain ⟨e, he⟩ := appendToolCallDelta_error codec h
      refine ⟨e, ?_⟩
      unfold convertPiece convertToolCall
      dsimp only
      rw [he]

theorem applyFinishReason_eq (s : StreamState) (reason : String) :
    s.applyFinishReason reason = relabel s (responsesStatusFromChatFinishReason reason).1
      (responsesStatusFromChatFinishReason reason).2 := rfl

/-- What a piece emits, unless it clashes. -/
theorem convertPiece_emission (hs : Sound s) (hcreated : s.sentCreated = true) {p : Piece}
    (h : ¬Clash s p) :
    ∃ s' events, convertPiece codec s p = ⟨s', events, none⟩ ∧
      Emission codec s events s' (Late s p) ∧ (Shows s p ↔ events ≠ []) := by
  cases p with
  | part p delta =>
      unfold convertPiece convertPart
      dsimp only
      by_cases hdelta : delta = ""
      · rw [if_neg fun hne => hne hdelta]
        refine ⟨s, [], rfl, ?_, fun hne => absurd hdelta hne, fun hne => absurd rfl hne⟩
        exact (Emission.silent hs hcreated rfl).iff ⟨False.elim, fun hlate => hlate.1 hdelta⟩
      · rw [if_pos hdelta]
        refine ⟨_, _, rfl, ?_, fun _ => ?_, fun _ => hdelta⟩
        · exact (append_emission codec hs hcreated p hdelta).iff
            ⟨fun hdone => ⟨hdelta, hdone⟩, fun hlate => hlate.2⟩
        · exact List.append_ne_nil_of_right_ne_nil _ (List.cons_ne_nil _ _)
  | toolCall toolCall =>
      obtain ⟨s', events, happend, hemission, hshows⟩ :=
        appendToolCallDelta_emission codec hs hcreated h
      unfold convertPiece convertToolCall
      dsimp only
      rw [happend]
      exact ⟨s', events, rfl, hemission, hshows⟩
  | finish reason =>
      unfold convertPiece convertFinish
      dsimp only
      cases reason with
      | none =>
          refine ⟨s, [], rfl, .silent hs hcreated rfl, fun hshows => ?_, fun hne => absurd rfl hne⟩
          obtain ⟨⟨text, htext, -⟩, -⟩ := hshows
          cases htext
      | some reason =>
          dsimp only
          by_cases hreason : Text.trimSpace reason = ""
          · rw [if_neg fun hne => hne hreason]
            refine ⟨s, [], rfl, .silent hs hcreated rfl, fun hshows => ?_,
              fun hne => absurd rfl hne⟩
            obtain ⟨⟨text, htext, hne⟩, -⟩ := hshows
            cases htext
            exact absurd hreason hne
          · rw [if_pos hreason]
            rw [applyFinishReason_eq]
            generalize responsesStatusFromChatFinishReason reason = status
            have hstart := relabel_emission codec hs hcreated status.1 status.2
            have hclosing := doneDeltaEvents_closing codec hstart.sound hstart.created
            refine ⟨_, _, rfl, hstart.append_timely hclosing.emission, ?_⟩
            refine Iff.trans ?_ hclosing.shows.symm
            refine (and_iff_right ⟨reason, rfl, hreason⟩).trans (or_congr ?_ Iff.rfl)
            exact exists_congr fun p => by rw [item_relabel]

/-- The pieces are in order: no delta is late, and a tool call that clashes, where the conversion
stops, does so before anything has been shown. -/
def InOrder : Prop → StreamState → List Piece → Prop
  | _, _, [] => True
  | shown, s, p :: ps =>
      (Clash s p ∧ ¬shown) ∨
        (¬Clash s p ∧ ¬Late s p ∧ InOrder (shown ∨ Shows s p) (convertPiece codec s p).state ps)

theorem inOrder_cons (shown : Prop) (s : StreamState) (p : Piece) (ps : List Piece) :
    InOrder codec shown s (p :: ps) ↔ (Clash s p ∧ ¬shown) ∨ (¬Clash s p ∧ ¬Late s p ∧
      InOrder codec (shown ∨ Shows s p) (convertPiece codec s p).state ps) := Iff.rfl

theorem Late.shows {p : Piece} (h : Late s p) : Shows s p := by
  cases p with
  | part p delta => exact h.1
  | toolCall toolCall => exact h.elim
  | finish reason => exact h.elim

/-- What the pieces of a chunk emit. -/
theorem convertPieces_emission :
    ∀ (ps : List Piece) (shown : Prop) {s : StreamState}, Sound s → s.sentCreated = true →
      ∃ late, Emission codec s (convertPieces codec s ps).events
          (convertPieces codec s ps).state late ∧
        (InOrder codec shown s ps → ¬late ∧ ((convertPieces codec s ps).error ≠ none →
          ¬shown ∧ (convertPieces codec s ps).events = [])) ∧
        (¬InOrder codec shown s ps → ((convertPieces codec s ps).error = none ∧ late) ∨
          ((convertPieces codec s ps).error ≠ none ∧
            (shown ∨ (convertPieces codec s ps).events ≠ [])))
  | [], shown, s, hs, hcreated =>
      ⟨False, .silent hs hcreated rfl, fun _ => ⟨id, fun h => absurd rfl h⟩,
        fun h => absurd trivial h⟩
  | p :: ps, shown, s, hs, hcreated => by
      rw [convertPieces_cons]
      by_cases hclash : Clash s p
      · obtain ⟨e, he⟩ := convertPiece_clash codec hclash
        rw [he]
        refine ⟨False, .silent hs hcreated rfl, fun h => ⟨id, fun _ => ⟨?_, rfl⟩⟩, fun h => ?_⟩
        · obtain h | h := h
          · exact h.2
          · exact absurd hclash h.1
        · refine .inr ⟨Option.some_ne_none e, .inl ?_⟩
          by_contra hshown
          exact h (.inl ⟨hclash, hshown⟩)
      · obtain ⟨s₁, es, hpiece, hfirst, hshows⟩ := convertPiece_emission codec hs hcreated hclash
        obtain ⟨late, hrest, horder, hdisorder⟩ :=
          convertPieces_emission ps (shown ∨ Shows s p) hfirst.sound hfirst.created
        have hiff : InOrder codec shown s (p :: ps) ↔
            ¬Late s p ∧ InOrder codec (shown ∨ Shows s p) s₁ ps := by
          rw [inOrder_cons, hpiece]
          exact ⟨fun h => (h.resolve_left fun hc => hclash hc.1).2, fun h => .inr ⟨hclash, h⟩⟩
        rw [hpiece]
        unfold Progress.andThen
        dsimp only
        rw [hiff]
        refine ⟨Late s p ∨ late, hfirst.append hrest, fun ⟨htimely, h⟩ => ?_, fun h => ?_⟩
        · obtain ⟨hlate, herror⟩ := horder h
          refine ⟨fun hl => hl.elim htimely hlate, fun he => ?_⟩
          obtain ⟨hshown, hnil⟩ := herror he
          have hes : es = [] := by
            by_contra hne
            exact hshown (.inr (hshows.mpr hne))
          rw [hes, hnil]
          exact ⟨fun hsh => hshown (.inl hsh), rfl⟩
        · by_cases hlate : Late s p
          · by_cases he : (convertPieces codec s₁ ps).error = none
            · exact .inl ⟨he, .inl hlate⟩
            · exact .inr ⟨he, .inr (List.append_ne_nil_of_left_ne_nil (hshows.mp hlate.shows) _)⟩
          · obtain ⟨he, hl⟩ | ⟨he, hshown⟩ := hdisorder fun horder => h ⟨hlate, horder⟩
            · exact .inl ⟨he, .inr hl⟩
            · refine .inr ⟨he, ?_⟩
              obtain (hshown | hshown) | hes := hshown
              · exact .inl hshown
              · exact .inr (List.append_ne_nil_of_left_ne_nil (hshows.mp hshown) _)
              · exact .inr (List.append_ne_nil_of_right_ne_nil _ hes)

/-! ### Chunks -/

/-- The state in which the pieces of a chunk are converted. -/
def chunkState (s : StreamState) (chunk : ChatCompletionsStreamResponse) : StreamState :=
  { applyChunk s chunk with sentCreated := true }

/-- The chunk is in order. -/
def Orderly (s : StreamState) (chunk : ChatCompletionsStreamResponse) : Prop :=
  InOrder codec (s.sentCreated = false) (chunkState s chunk) (chunkPieces chunk)

def createdEvents (s : StreamState) : List ResponsesStreamEvent :=
  if s.sentCreated then []
  else [.created { s with sentCreated := true }.createdResponse]

theorem announceResponse_eq (s : StreamState) :
    announceResponse s = ⟨{ s with sentCreated := true }, createdEvents s, none⟩ := by
  unfold announceResponse createdEvents
  cases h : s.sentCreated with
  | true =>
      obtain ⟨⟩ := s
      cases h
      rfl
  | false => rfl

theorem chunkState_sound (hs : Sound s) (chunk : ChatCompletionsStreamResponse) :
    Sound (chunkState s chunk) :=
  hs.congr (fun p => by cases p <;> rfl) rfl rfl rfl rfl

theorem chunkState_items (s : StreamState) (chunk : ChatCompletionsStreamResponse) :
    (reader codec (chunkState s chunk)).items = (reader codec s).items := by
  unfold reader
  dsimp only
  refine List.map_congr_left fun ref _ => ?_
  cases ref <;> rfl

/-- The first event, or none. -/
theorem created_accepted (hs : Sound s) (chunk : ChatCompletionsStreamResponse) :
    acceptAll codec (reader codec s) (createdEvents (applyChunk s chunk)) =
      some (reader codec (chunkState s chunk)) := by
  have hreader : reader codec (chunkState s chunk) =
      { reader codec s with created := true } := by
    have hitems := chunkState_items codec s chunk
    unfold reader at hitems ⊢
    dsimp only at hitems ⊢
    rw [hitems]
    rfl
  rw [hreader]
  unfold createdEvents
  change acceptAll codec _ (if s.sentCreated = true then _ else _) = _
  by_cases h : s.sentCreated = true
  · rw [if_pos h, acceptAll_nil]
    unfold reader
    rw [h]
  · rw [if_neg h, acceptAll_cons, Reader.accept_created codec h hs.running]
    rfl

theorem weightAll_pos {events : List ResponsesStreamEvent} (hne : events ≠ [])
    (h : ∀ e ∈ events, 0 < eventWeight e) : 0 < weightAll events := by
  cases events with
  | nil => exact absurd rfl hne
  | cons e es =>
      have := h e List.mem_cons_self
      unfold weightAll
      rw [List.map_cons, List.sum_cons]
      omega

theorem chunk_eq (s : StreamState) (chunk : ChatCompletionsStreamResponse) :
    chatCompletionsStreamChunkToResponsesEvents codec s chunk =
      ((convertPieces codec (chunkState s chunk) (chunkPieces chunk)).state,
        if (convertPieces codec (chunkState s chunk) (chunkPieces chunk)).error.isSome then []
        else createdEvents (applyChunk s chunk) ++
          (convertPieces codec (chunkState s chunk) (chunkPieces chunk)).events) := by
  unfold chatCompletionsStreamChunkToResponsesEvents
  rw [convertChunk_eq, announceResponse_eq]
  rfl

/-- How the events of a chunk relate to what the state gains. -/
structure ChunkEmission (s : StreamState) (chunk : ChatCompletionsStreamResponse)
    (result : StreamState × List ResponsesStreamEvent) : Prop where
  sound : Sound result.1
  created : result.1.sentCreated = true
  weight : (reader codec s).weight + weightAll result.2 ≤ (reader codec result.1).weight
  accepted : Orderly codec s chunk →
    acceptAll codec (reader codec s) result.2 = some (reader codec result.1)
  refused : ¬Orderly codec s chunk → acceptAll codec (reader codec s) result.2 = none ∨
    (reader codec s).weight + weightAll result.2 < (reader codec result.1).weight

theorem chunk_emission (hs : Sound s) (chunk : ChatCompletionsStreamResponse) :
    ChunkEmission codec s chunk (chatCompletionsStreamChunkToResponsesEvents codec s chunk) := by
  obtain ⟨late, hpieces, horder, hdisorder⟩ := convertPieces_emission codec (chunkPieces chunk)
    (s.sentCreated = false) (chunkState_sound hs chunk) rfl
  have hfirst := created_accepted codec hs chunk
  have hfirstWeight := acceptAll_weight hfirst
  rw [chunk_eq]
  change InOrder codec _ _ _ → _ at horder
  change ¬Orderly codec s chunk → _ at hdisorder
  change Orderly codec s chunk → _ at horder
  generalize convertPieces codec (chunkState s chunk) (chunkPieces chunk) = r at *
  have hweight := hpieces.weight
  by_cases herror : r.error = none
  · rw [herror]
    refine ⟨hpieces.sound, hpieces.created, ?_, fun h => ?_, fun h => .inl ?_⟩
    · show (reader codec s).weight + weightAll (createdEvents (applyChunk s chunk) ++ r.events) ≤
        (reader codec r.state).weight
      rw [weightAll_append]
      omega
    · show acceptAll codec _ (createdEvents (applyChunk s chunk) ++ r.events) = _
      rw [acceptAll_append, hfirst]
      exact hpieces.accepted (horder h).1
    · show acceptAll codec _ (createdEvents (applyChunk s chunk) ++ r.events) = _
      rw [acceptAll_append, hfirst]
      obtain h | h := hdisorder h
      · exact hpieces.refused h.2
      · exact absurd herror h.1
  · have hsome : r.error.isSome = true := Option.isSome_iff_ne_none.mpr herror
    rw [if_pos hsome]
    refine ⟨hpieces.sound, hpieces.created, ?_, fun h => ?_, fun h => .inr ?_⟩
    · show (reader codec s).weight + 0 ≤ (reader codec r.state).weight
      omega
    · obtain ⟨hlate, hnil⟩ := horder h
      obtain ⟨hshown, hevents⟩ := hnil herror
      have haccepted := hpieces.accepted hlate
      have hcreated : createdEvents (applyChunk s chunk) = [] :=
        if_pos (Bool.not_eq_false _ ▸ hshown)
      rw [hcreated] at hfirst
      rw [hevents] at haccepted
      show some (reader codec s) = some (reader codec r.state)
      rw [Option.some.inj hfirst]
      exact haccepted
    · show (reader codec s).weight + 0 < (reader codec r.state).weight
      obtain h | ⟨-, hshown | hevents⟩ := hdisorder h
      · exact absurd h.1 herror
      · have hone : weightAll (createdEvents (applyChunk s chunk)) = 1 := by
          unfold createdEvents
          rw [if_neg (by rw [show (applyChunk s chunk).sentCreated = s.sentCreated from rfl, hshown]
                         exact Bool.false_ne_true)]
          rfl
        omega
      · have hpos := weightAll_pos hevents hpieces.positive
        omega

end MaxApi.Responses
