import MaxApi.Lib.Int64
import MaxApi.Lib.System
import MaxApi.Lib.Text

/-! # The end of a Responses stream

What a request has sent downstream.  A call holds the lock of the request from its first read to its
last write, so an interleaving of calls is a list of them; what the request context, the writer and
the flusher do during a call is an argument of the call (`Downstream`).  The state with the lock is
made by the first call that looks for it; that there is one before calls race is assumed.  The JSON
libraries are parameters (`Library`), and the frames handed to the writer are kept beside the state.

The state counts in 64 bits.  A failure event goes beyond every number delivered before as long as
the calls after a number leave room for counting on (`Fits`). -/

namespace MaxApi.ResponsesStream

open Int64Range Transition

/-! ### Payloads -/

/-- What a lookup of `sequence_number` finds. -/
inductive Sequence where
  | absent
  | number (n : ℤ)
  | other
  deriving DecidableEq

/-- What `ToOpenAIError` returns, with the code as a text. -/
structure OpenAIError where
  message : String
  param : String
  code : Option String

/-- The event of a failure: a plain error, or the recorded response with this error, the status
`failed`, no incomplete details and no usage. -/
inductive FailureEvent where
  | error (code : Option String) (message : String) (param : Option String) (sequenceNumber : ℤ)
  | failed (response code message : String) (sequenceNumber : ℤ)
  deriving DecidableEq

def FailureEvent.type : FailureEvent → String
  | .error .. => "error"
  | .failed .. => "response.failed"

def FailureEvent.sequenceNumber : FailureEvent → ℤ
  | .error _ _ _ n => n
  | .failed _ _ _ n => n

/-- The JSON libraries: the member `sequence_number` of a payload and its insertion, the text of the
member `response` where it is an object, the text `id` of a recorded response, and the text of a
failure event. -/
structure Library where
  sequence : String → Sequence
  setSequence : String → ℤ → Except String String
  response : String → Option String
  responseId : String → Except String (Option String)
  marshal : FailureEvent → Except String String

/-- A number that was written is the number that is read. -/
structure Library.Lawful (lib : Library) : Prop where
  sequence_setSequence : ∀ {data n data'}, lib.setSequence data n = .ok data' →
    lib.sequence data' = .number n
  sequence_marshal : ∀ {event data}, lib.marshal event = .ok data →
    lib.sequence data = .number event.sequenceNumber

/-! ### State -/

/-- `responsesStreamState`; an empty `response` is none. -/
structure State where
  nextSequence : ℤ
  response : String
  terminal : Bool
  writeErr : Option String
  deriving DecidableEq

/-- A frame that was handed to the writer, and whether it counts as delivered. -/
structure Frame where
  eventType : String
  data : String
  delivered : Bool
  deriving DecidableEq

structure World where
  state : State
  frames : List Frame
  deriving DecidableEq

def World.start : World := ⟨⟨0, "", false, none⟩, []⟩

/-- What happens around a call: the error of the request context when `WriteResponsesStreamFailure`
and `writeResponsesStreamFrame` ask for it, the result of the write and the error of the flush. -/
structure Downstream where
  failureDone : Option String
  frameDone : Option String
  write : Except String ℕ
  flush : Option String

def errResponsesStreamClosed : String := "responses stream is already terminal"

/-- `isResponsesTerminalEvent`. -/
def isResponsesTerminalEvent (eventType : String) : Bool :=
  eventType ∈ ["response.completed", "response.incomplete", "response.failed", "response.done",
    "response.cancelled", "response.canceled", "error", "response.error"]

section calls

variable (lib : Library)

/-- `recordDelivery`. -/
def recordDelivery (s : State) (eventType data : String) : State where
  nextSequence :=
    match lib.sequence data with
    | .number n => if s.nextSequence < wrap (n + 1) then wrap (n + 1) else s.nextSequence
    | _ => wrap (s.nextSequence + 1)
  response := (lib.response data).getD s.response
  terminal := isResponsesTerminalEvent eventType || s.terminal
  writeErr := s.writeErr

/-- The text of a frame. -/
def frameText (eventType data : String) : String :=
  "event: " ++ eventType ++ "\ndata: " ++ "\\r".intercalate (Text.split data '\r') ++ "\n\n"

/-- The payload with a number, where `writeResponsesStreamFrame` adds one. -/
def withSequence (next : ℤ) (eventType data : String) : Except String String :=
  if (Text.hasPrefix eventType "response." ∨ eventType = "error") ∧ lib.sequence data = .absent then
    lib.setSequence data next
  else .ok data

/-- `writeResponsesStreamFrame` from the write on. -/
def sendFrame (env : Downstream) (w : World) (eventType data : String) :
    World × Bool × Option String :=
  match env.write with
  | .error e =>
      (⟨{ w.state with writeErr := some e }, w.frames ++ [⟨eventType, data, false⟩]⟩, false, some e)
  | .ok n =>
      if n ≠ (frameText eventType data).utf8ByteSize then
        (⟨{ w.state with writeErr := some "short write" }, w.frames ++ [⟨eventType, data, false⟩]⟩,
          false, some "short write")
      else
        (⟨{ recordDelivery lib w.state eventType data with writeErr := env.flush },
          w.frames ++ [⟨eventType, data, true⟩]⟩, true, env.flush)

/-- `writeResponsesStreamFrame`: whether the frame was delivered, and the error. -/
def writeResponsesStreamFrame (env : Downstream) (w : World) (eventType data : String) :
    World × Bool × Option String :=
  match w.state.writeErr with
  | some e => (w, false, some e)
  | none =>
      if w.state.terminal then (w, false, some errResponsesStreamClosed)
      else
        match env.frameDone with
        | some e =>
            ({ w with state := { w.state with writeErr := some ("request context done: " ++ e) } },
              false, some ("request context done: " ++ e))
        | none =>
            match withSequence lib w.state.nextSequence eventType data with
            | .error e => (w, false, some e)
            | .ok data => sendFrame lib env w eventType data

/-- `ResponseChunkDataWithDelivery`. -/
def responseChunkDataWithDelivery (env : Downstream) (w : World) (eventType data : String) :
    World × Bool × Option String :=
  writeResponsesStreamFrame lib env w eventType data

/-- `LatchResponsesStreamWriteError`. -/
def latchResponsesStreamWriteError (w : World) (err : Option String) : World :=
  match err with
  | none => w
  | some e =>
      if w.state.writeErr = none then { w with state := { w.state with writeErr := some e } } else w

/-- The event that `WriteResponsesStreamFailure` sends. -/
def failureEvent (s : State) (oaiErr : OpenAIError) : Except String FailureEvent :=
  let plain := FailureEvent.error oaiErr.code oaiErr.message
    (if oaiErr.param = "" then none else some oaiErr.param) s.nextSequence
  if s.response = "" then .ok plain
  else
    match lib.responseId s.response with
    | .error e => .error e
    | .ok id =>
        if id.getD "" = "" then .ok plain
        else
          .ok (.failed s.response
            (if oaiErr.code = some "rate_limit_exceeded" then "rate_limit_exceeded"
              else "server_error")
            oaiErr.message s.nextSequence)

/-- `WriteResponsesStreamFailure`. -/
def writeResponsesStreamFailure (env : Downstream) (w : World) (oaiErr : OpenAIError) :
    World × Option String :=
  if w.state.writeErr ≠ none then (w, w.state.writeErr)
  else if w.state.terminal then (w, none)
  else
    match env.failureDone with
    | some e => (w, some e)
    | none =>
        match failureEvent lib w.state oaiErr with
        | .error e => (w, some e)
        | .ok event =>
            match lib.marshal event with
            | .error e => (w, some e)
            | .ok data =>
                let (w, _, err) := writeResponsesStreamFrame lib env w event.type data
                (w, err)

/-- A call on the request. -/
inductive Call where
  | chunk (env : Downstream) (eventType data : String)
  | latch (err : Option String)
  | failure (env : Downstream) (oaiErr : OpenAIError)

def step (w : World) : Call → World
  | .chunk env eventType data => (responseChunkDataWithDelivery lib env w eventType data).1
  | .latch err => latchResponsesStreamWriteError w err
  | .failure env oaiErr => (writeResponsesStreamFailure lib env w oaiErr).1

end calls

/-! ### What a call can do -/

/-- A terminal event that was delivered. -/
def Frame.ends (f : Frame) : Bool := f.delivered && isResponsesTerminalEvent f.eventType

/-- Nothing may be sent any more. -/
def World.Ended (w : World) : Prop := (∃ f ∈ w.frames, f.ends = true) ∨ w.state.writeErr ≠ none

/-- What a call makes of a world: it may latch an error, or hand one frame to the writer, which is
lost or delivered. -/
inductive Advances (lib : Library) (w : World) : World → Prop where
  | still (e : Option String) (h : w.state.writeErr ≠ none → e = w.state.writeErr) :
      Advances lib w ⟨{ w.state with writeErr := e }, w.frames⟩
  | lost (eventType data e : String) (hterminal : w.state.terminal = false)
      (herr : w.state.writeErr = none) :
      Advances lib w ⟨{ w.state with writeErr := some e }, w.frames ++ [⟨eventType, data, false⟩]⟩
  | delivered (eventType data : String) (e : Option String) (hterminal : w.state.terminal = false)
      (herr : w.state.writeErr = none) :
      Advances lib w ⟨{ recordDelivery lib w.state eventType data with writeErr := e },
        w.frames ++ [⟨eventType, data, true⟩]⟩

section advances

variable {lib : Library} {w w' : World}

theorem advances_refl : Advances lib w w := .still w.state.writeErr fun _ => rfl

theorem sendFrame_advances {env : Downstream} {eventType data : String}
    (hterminal : w.state.terminal = false) (herr : w.state.writeErr = none) :
    Advances lib w (sendFrame lib env w eventType data).1 := by
  unfold sendFrame
  cases env.write with
  | error e => exact .lost eventType data e hterminal herr
  | ok n =>
      dsimp only
      split
      · exact .lost eventType data _ hterminal herr
      · exact .delivered eventType data env.flush hterminal herr

theorem writeFrame_advances {env : Downstream} {eventType data : String} :
    Advances lib w (writeResponsesStreamFrame lib env w eventType data).1 := by
  unfold writeResponsesStreamFrame
  cases herr : w.state.writeErr with
  | some e => exact advances_refl
  | none =>
      dsimp only
      by_cases hterminal : w.state.terminal = true
      · rw [if_pos hterminal]
        exact advances_refl
      · rw [if_neg hterminal]
        cases env.frameDone with
        | some e => exact .still _ fun h => absurd herr h
        | none =>
            dsimp only
            cases withSequence lib w.state.nextSequence eventType data with
            | error e => exact advances_refl
            | ok data => exact sendFrame_advances (Bool.eq_false_iff.mpr hterminal) herr

theorem latch_advances {err : Option String} :
    Advances lib w (latchResponsesStreamWriteError w err) := by
  unfold latchResponsesStreamWriteError
  cases err with
  | none => exact advances_refl
  | some e =>
      dsimp only
      split
      next h => exact .still _ fun hne => absurd h hne
      next => exact advances_refl

/-- What `WriteResponsesStreamFailure` does is what its frame does, or nothing. -/
theorem failure_cases (lib : Library) (w : World) (env : Downstream) (oaiErr : OpenAIError) :
    (writeResponsesStreamFailure lib env w oaiErr).1 = w ∨
      ∃ event data, failureEvent lib w.state oaiErr = .ok event ∧ lib.marshal event = .ok data ∧
        (writeResponsesStreamFailure lib env w oaiErr).1 =
          (writeResponsesStreamFrame lib env w event.type data).1 := by
  unfold writeResponsesStreamFailure
  split
  · exact .inl rfl
  · split
    · exact .inl rfl
    · cases env.failureDone with
      | some e => exact .inl rfl
      | none =>
          dsimp only
          cases hevent : failureEvent lib w.state oaiErr with
          | error e => exact .inl rfl
          | ok event =>
              dsimp only
              cases hdata : lib.marshal event with
              | error e => exact .inl rfl
              | ok data => exact .inr ⟨event, data, rfl, hdata, rfl⟩

theorem step_advances (call : Call) : Advances lib w (step lib w call) := by
  cases call with
  | chunk env eventType data => exact writeFrame_advances
  | latch err => exact latch_advances
  | failure env oaiErr =>
      show Advances lib w (writeResponsesStreamFailure lib env w oaiErr).1
      obtain h | ⟨event, data, -, -, h⟩ := failure_cases lib w env oaiErr
      · rw [h]
        exact advances_refl
      · rw [h]
        exact writeFrame_advances

/-! ### The end -/

/-- The flag says whether a terminal event was delivered, and there is at most one. -/
def Counted (w : World) : Prop := w.frames.countP Frame.ends = if w.state.terminal then 1 else 0

theorem Advances.counted (h : Advances lib w w') (hw : Counted w) : Counted w' := by
  unfold Counted at hw ⊢
  cases h with
  | still e _ => exact hw
  | lost eventType data e hterminal _ =>
      have hends : Frame.ends ⟨eventType, data, false⟩ = false := rfl
      simp [List.countP_append, hends, hw]
  | delivered eventType data e hterminal _ =>
      have hends : Frame.ends ⟨eventType, data, true⟩ = isResponsesTerminalEvent eventType := rfl
      rw [hterminal] at hw
      simp [List.countP_append, List.countP_cons, hends, hw, recordDelivery, hterminal]

theorem run_counted (calls : List Call) : Counted (run (step lib) World.start calls) :=
  run_invariant (step lib) (fun _ call hw => (step_advances call).counted hw) calls World.start rfl

/-- After the end the world stands still. -/
theorem Advances.of_ended (h : Advances lib w w') (hw : Counted w) (hended : w.Ended) :
    w'.frames = w.frames ∧ w'.Ended := by
  have hclosed : w.state.terminal = true ∨ w.state.writeErr ≠ none := by
    obtain ⟨f, hf, hends⟩ | herr := hended
    · left
      by_contra hopen
      unfold Counted at hw
      rw [if_neg hopen, List.countP_eq_zero] at hw
      exact hw f hf hends
    · exact .inr herr
  cases h with
  | still e he =>
      refine ⟨rfl, ?_⟩
      obtain hf | herr := hended
      · exact .inl hf
      · refine .inr ?_
        rw [he herr]
        exact herr
  | lost _ _ _ hterminal herr | delivered _ _ _ hterminal herr =>
      obtain h | h := hclosed
      · rw [hterminal] at h
        exact absurd h Bool.false_ne_true
      · exact absurd herr h

theorem run_of_ended (calls : List Call) (hw : Counted w) (hended : w.Ended) :
    (run (step lib) w calls).frames = w.frames := by
  induction calls generalizing w with
  | nil => rfl
  | cons call calls ih =>
      obtain ⟨hframes, hended'⟩ := (step_advances call).of_ended hw hended
      rw [run_cons, ih ((step_advances call).counted hw) hended', hframes]

/-- A frame that was lost changes no number and no response, and latches an error. -/
theorem Advances.of_lost (h : Advances lib w w') {f : Frame} (hframes : w'.frames = w.frames ++ [f])
    (hlost : f.delivered = false) :
    w'.state.nextSequence = w.state.nextSequence ∧ w'.state.response = w.state.response ∧
      w'.state.writeErr ≠ none := by
  cases h with
  | still e _ => exact absurd hframes.symm (by simp)
  | lost eventType data e _ _ => exact ⟨rfl, rfl, Option.some_ne_none e⟩
  | delivered eventType data e _ _ =>
      rw [← List.cons.inj (List.append_cancel_left hframes) |>.1] at hlost
      cases hlost

end advances

/-! ### Sequence numbers -/

/-- The number that a call brings along. -/
def Call.number (lib : Library) : Call → Option ℤ
  | .chunk _ _ data => match lib.sequence data with | .number n => some n | _ => none
  | _ => none

/-- Every number that a call brings along has 64 bits and leaves room for the calls after it. -/
def Fits (lib : Library) : List Call → Prop
  | [] => True
  | call :: calls =>
      (∀ m, call.number lib = some m → minValue ≤ m ∧ m + calls.length < maxValue) ∧
        Fits lib calls

/-- The next number is above every delivered one and leaves room for `k` calls. -/
structure Room (lib : Library) (w : World) (k : ℕ) : Prop where
  nonneg : 0 ≤ w.state.nextSequence
  room : w.state.nextSequence + k ≤ maxValue
  below : ∀ f ∈ w.frames, f.delivered = true → ∀ m, lib.sequence f.data = .number m →
    m < w.state.nextSequence

section numbers

variable {lib : Library} {w : World} {f : Frame}

theorem failureEvent_sequence {s : State} {oaiErr : OpenAIError} {event : FailureEvent}
    (h : failureEvent lib s oaiErr = .ok event) : event.sequenceNumber = s.nextSequence := by
  unfold failureEvent at h
  dsimp only at h
  split at h
  · rw [← Except.ok.inj h]
    rfl
  · split at h
    · cases h
    · split at h
      · rw [← Except.ok.inj h]
        rfl
      · rw [← Except.ok.inj h]
        rfl

/-- The payload of a frame is the given one with a number. -/
theorem writeFrame_data {env : Downstream} {eventType data : String}
    (h : (writeResponsesStreamFrame lib env w eventType data).1.frames = w.frames ++ [f]) :
    withSequence lib w.state.nextSequence eventType data = .ok f.data := by
  have hsame : w.frames ≠ w.frames ++ [f] := by simp
  unfold writeResponsesStreamFrame at h
  split at h
  · exact absurd h hsame
  · split at h
    · exact absurd h hsame
    · split at h
      · exact absurd h hsame
      · split at h
        · exact absurd h hsame
        next data' hdata =>
          rw [hdata]
          unfold sendFrame at h
          split at h
          · exact congrArg Except.ok (congrArg Frame.data (List.cons.inj
              (List.append_cancel_left h)).1)
          · split at h
            · exact congrArg Except.ok (congrArg Frame.data (List.cons.inj
                (List.append_cancel_left h)).1)
            · exact congrArg Except.ok (congrArg Frame.data (List.cons.inj
                (List.append_cancel_left h)).1)

/-- A payload that has a number keeps it. -/
theorem withSequence_of_ne {next : ℤ} {eventType data : String} (h : lib.sequence data ≠ .absent) :
    withSequence lib next eventType data = .ok data := by
  unfold withSequence
  rw [if_neg fun hadd => h hadd.2]

theorem withSequence_number (hlib : lib.Lawful) {next m : ℤ} {eventType data data' : String}
    (h : withSequence lib next eventType data = .ok data') (hm : lib.sequence data' = .number m) :
    m = next ∨ lib.sequence data = .number m := by
  unfold withSequence at h
  split at h
  · have hnext := hlib.sequence_setSequence h
    rw [hm] at hnext
    exact .inl (Sequence.number.inj hnext)
  · rw [Except.ok.inj h]
    exact .inr hm

/-- The frame of a failure carries the next number. -/
theorem failure_number (hlib : lib.Lawful) {env : Downstream} {oaiErr : OpenAIError}
    (h : (writeResponsesStreamFailure lib env w oaiErr).1.frames = w.frames ++ [f]) :
    lib.sequence f.data = .number w.state.nextSequence := by
  obtain heq | ⟨event, data, hevent, hdata, heq⟩ := failure_cases lib w env oaiErr
  · rw [heq] at h
    exact absurd h (by simp)
  · have hsequence := hlib.sequence_marshal hdata
    rw [failureEvent_sequence hevent] at hsequence
    rw [heq] at h
    have hframe := writeFrame_data h
    rw [withSequence_of_ne (by simp [hsequence])] at hframe
    rw [← Except.ok.inj hframe]
    exact hsequence

/-- The number of a frame is the next one, or the one that the call brings along. -/
theorem step_number (hlib : lib.Lawful) (call : Call) {m : ℤ}
    (h : (step lib w call).frames = w.frames ++ [f]) (hm : lib.sequence f.data = .number m) :
    m = w.state.nextSequence ∨ call.number lib = some m := by
  cases call with
  | chunk env eventType data =>
      obtain hnext | hdata := withSequence_number hlib (writeFrame_data h) hm
      · exact .inl hnext
      · refine .inr ?_
        unfold Call.number
        dsimp only
        rw [hdata]
  | latch err =>
      have hsame : (latchResponsesStreamWriteError w err).frames = w.frames := by
        unfold latchResponsesStreamWriteError
        cases err with
        | none => rfl
        | some e =>
            dsimp only
            split <;> rfl
      exact absurd (hsame.symm.trans h) (by simp)
  | failure env oaiErr =>
      have hnext := failure_number hlib h
      rw [hm] at hnext
      exact .inl (Sequence.number.inj hnext)

/-- The next number after a delivery. -/
theorem recordDelivery_next {s : State} (eventType : String) {data : String} {k : ℕ}
    (hnonneg : 0 ≤ s.nextSequence) (hroom : s.nextSequence + (k + 1 : ℕ) ≤ maxValue)
    (hnumber : ∀ m, lib.sequence data = .number m →
      m = s.nextSequence ∨ (minValue ≤ m ∧ m + k < maxValue)) :
    s.nextSequence ≤ (recordDelivery lib s eventType data).nextSequence ∧
      (recordDelivery lib s eventType data).nextSequence + k ≤ maxValue ∧
        ∀ m, lib.sequence data = .number m →
          m < (recordDelivery lib s eventType data).nextSequence := by
  unfold recordDelivery
  dsimp only
  push_cast at hroom
  unfold maxValue minValue at *
  cases hsequence : lib.sequence data with
  | number n =>
      dsimp only
      have hn := hnumber n hsequence
      have hwrap : wrap (n + 1) = n + 1 := by
        apply wrap_eq
        unfold Representable minValue maxValue
        omega
      rw [hwrap]
      split
      · refine ⟨by omega, by omega, fun m hm => ?_⟩
        rw [← Sequence.number.inj hm]
        omega
      · refine ⟨by omega, by omega, fun m hm => ?_⟩
        rw [← Sequence.number.inj hm]
        omega
  | absent | other =>
      dsimp only
      have hwrap : wrap (s.nextSequence + 1) = s.nextSequence + 1 := by
        apply wrap_eq
        unfold Representable minValue maxValue
        omega
      rw [hwrap]
      exact ⟨by omega, by omega, fun m hm => by cases hm⟩

theorem step_room (hlib : lib.Lawful) {call : Call} {k : ℕ} (hw : Room lib w (k + 1))
    (hcall : ∀ m, call.number lib = some m → minValue ≤ m ∧ m + k < maxValue) :
    Room lib (step lib w call) k := by
  have hroom : w.state.nextSequence + k ≤ maxValue := by
    have h := hw.room
    push_cast at h
    omega
  have hnumber : ∀ f m, (step lib w call).frames = w.frames ++ [f] →
      lib.sequence f.data = .number m → m = w.state.nextSequence ∨ call.number lib = some m :=
    fun f m => step_number hlib call
  generalize hstep : step lib w call = w' at hnumber
  have hadvances : Advances lib w w' := hstep ▸ step_advances call
  cases hadvances with
  | still e _ => exact ⟨hw.nonneg, hroom, hw.below⟩
  | lost eventType data e _ _ =>
      refine ⟨hw.nonneg, hroom, fun f hf hdelivered m hm => ?_⟩
      rcases List.mem_append.mp hf with hf | hf
      · exact hw.below f hf hdelivered m hm
      · rw [List.mem_singleton.mp hf] at hdelivered
        cases hdelivered
  | delivered eventType data e _ _ =>
      obtain ⟨hle, hfits, hbelow⟩ := recordDelivery_next eventType hw.nonneg hw.room
        (fun m hm => (hnumber _ m rfl hm).imp_right (hcall m))
      refine ⟨Int.le_trans hw.nonneg hle, hfits, fun f hf hdelivered m hm => ?_⟩
      rcases List.mem_append.mp hf with hf | hf
      · exact Int.lt_of_lt_of_le (hw.below f hf hdelivered m hm) hle
      · rw [List.mem_singleton.mp hf] at hm
        exact hbelow m hm

theorem run_room (hlib : lib.Lawful) {calls : List Call} (hcalls : Fits lib calls)
    (hw : Room lib w calls.length) : Room lib (run (step lib) w calls) 0 := by
  induction calls generalizing w with
  | nil => exact hw
  | cons call calls ih => exact ih hcalls.2 (step_room hlib hw hcalls.1)

theorem room_start {k : ℕ} (h : (k : ℤ) ≤ maxValue) : Room lib World.start k :=
  ⟨Int.le_refl _, by simpa [World.start] using h, fun f hf => absurd hf List.not_mem_nil⟩

end numbers

/-! ### Main result -/

/-- **Main.** In every run at most one terminal event is delivered; after the end nothing is handed
to the writer; a frame that is lost changes no number and no response and ends the stream; and while
the numbers leave room, a failure event carries a number above every delivered one. -/
theorem nothing_follows_end (lib : Library) (hlib : lib.Lawful) (calls : List Call) :
    let w := run (step lib) World.start calls
    w.frames.countP Frame.ends ≤ 1 ∧
      (w.Ended → ∀ later, (run (step lib) w later).frames = w.frames) ∧
      (∀ e, (step lib w (.latch (some e))).state.writeErr ≠ none) ∧
      (∀ call f, (step lib w call).frames = w.frames ++ [f] → f.delivered = false →
        (step lib w call).state.nextSequence = w.state.nextSequence ∧
          (step lib w call).state.response = w.state.response ∧
            (step lib w call).state.writeErr ≠ none) ∧
      (Fits lib calls → (calls.length : ℤ) ≤ maxValue → ∀ env oaiErr f,
        (step lib w (.failure env oaiErr)).frames = w.frames ++ [f] →
          ∃ n, lib.sequence f.data = .number n ∧
            ∀ g ∈ w.frames, g.delivered = true → ∀ m, lib.sequence g.data = .number m → m < n) := by
  intro w
  have hcounted : Counted w := run_counted calls
  refine ⟨?_, fun hended later => run_of_ended later hcounted hended, fun e => ?_,
    fun call f hframes hlost => (step_advances call).of_lost hframes hlost,
    fun hcalls hlength env oaiErr f hframes => ?_⟩
  · unfold Counted at hcounted
    rw [hcounted]
    split <;> omega
  · show (latchResponsesStreamWriteError w (some e)).state.writeErr ≠ none
    unfold latchResponsesStreamWriteError
    dsimp only
    split
    · exact Option.some_ne_none e
    next h => exact h
  · exact ⟨w.state.nextSequence, failure_number hlib hframes,
      (run_room hlib hcalls (room_start hlength)).below⟩

/-- A payload without a number, and one with a number. -/
def payload (eventType : String) : String := "\x7b\"type\":\"" ++ eventType ++ "\"\x7d"

def numbered (eventType number : String) : String :=
  "\x7b\"type\":\"" ++ eventType ++ "\",\"sequence_number\":" ++ number ++ "\x7d"

/-- The failure event of an upstream that has closed the stream, and its text. -/
def closed (n : ℤ) : FailureEvent := .error (some "bad_response") "upstream closed" none n

def closedText (number : String) : String :=
  "\x7b\"code\":\"bad_response\",\"message\":\"upstream closed\",\"param\":null," ++
    "\"sequence_number\":" ++ number ++ ",\"type\":\"error\"\x7d"

/-- The JSON libraries on a few payloads. -/
def shortLibrary : Library where
  sequence data :=
    if data = numbered "response.created" "9223372036854775806" then .number 9223372036854775806
    else if data = numbered "response.queued" "9223372036854775807" then .number 9223372036854775807
    else if data = numbered "response.created" "0" then .number 0
    else if data = closedText "9223372036854775807" then .number 9223372036854775807
    else if data = closedText "1" then .number 1
    else .absent
  setSequence data n :=
    if data = payload "response.queued" ∧ n = 9223372036854775807 then
      .ok (numbered "response.queued" "9223372036854775807")
    else if data = payload "response.created" ∧ n = 0 then .ok (numbered "response.created" "0")
    else .error "not one of these payloads"
  response _ := none
  responseId _ := .ok none
  marshal event :=
    if event = closed 9223372036854775807 then .ok (closedText "9223372036854775807")
    else if event = closed 1 then .ok (closedText "1")
    else .error "not one of these events"

theorem shortLibrary_lawful : shortLibrary.Lawful where
  sequence_setSequence := by
    intro data n data' h
    unfold shortLibrary at h ⊢
    dsimp only at h ⊢
    split at h
    next hcase =>
      rw [← Except.ok.inj h, hcase.2]
      decide +kernel
    · split at h
      next hcase =>
        rw [← Except.ok.inj h, hcase.2]
        decide +kernel
      · cases h
  sequence_marshal := by
    intro event data h
    unfold shortLibrary at h ⊢
    dsimp only at h ⊢
    split at h
    next hcase =>
      rw [← Except.ok.inj h, hcase]
      decide +kernel
    · split at h
      next hcase =>
        rw [← Except.ok.inj h, hcase]
        decide +kernel
      · cases h

/-- A writer that takes the whole frame of the payload. -/
def accepts (eventType data : String) : Downstream :=
  ⟨none, none, .ok (frameText eventType data).utf8ByteSize, none⟩

/-- The error of an upstream that has closed the stream. -/
def upstreamClosed : OpenAIError := ⟨"upstream closed", "", some "bad_response"⟩

/-- A created response without a number, and the end of the stream that fails after it. -/
def createdThenFailure : List Call :=
  [.chunk (accepts "response.created" (numbered "response.created" "0")) "response.created"
    (payload "response.created")]

theorem nothing_follows_end_created : ∃ f, (step shortLibrary
      (run (step shortLibrary) World.start createdThenFailure)
      (.failure (accepts "error" (closedText "1")) upstreamClosed)).frames =
        (run (step shortLibrary) World.start createdThenFailure).frames ++ [f] ∧
    ∃ n, shortLibrary.sequence f.data = .number n ∧
      ∀ g ∈ (run (step shortLibrary) World.start createdThenFailure).frames,
        g.delivered = true → ∀ m, shortLibrary.sequence g.data = .number m → m < n := by
  refine ⟨⟨"error", closedText "1", true⟩, by decide +kernel, ?_⟩
  refine (nothing_follows_end shortLibrary shortLibrary_lawful createdThenFailure).2.2.2.2 ?_
    (by decide) (accepts "error" (closedText "1")) upstreamClosed _ (by decide +kernel)
  refine ⟨fun m hm => ?_, trivial⟩
  have hnone : Call.number shortLibrary (.chunk (accepts "response.created"
      (numbered "response.created" "0")) "response.created" (payload "response.created")) =
      none := by decide +kernel
  rw [hnone] at hm
  cases hm

/-- The last number that leaves room for none after it, and a payload without one. -/
def lastNumbers : List Call :=
  [.chunk (accepts "response.created" (numbered "response.created" "9223372036854775806"))
      "response.created" (numbered "response.created" "9223372036854775806"),
    .chunk (accepts "response.queued" (numbered "response.queued" "9223372036854775807"))
      "response.queued" (payload "response.queued")]

/-- After the number `2 ^ 63 - 2` the count stands still, and the failure event repeats the number
of the payload before it. -/
theorem failure_repeats_number :
    (∀ call ∈ lastNumbers, ∀ m, call.number shortLibrary = some m → m < 9223372036854775807) ∧
      ∃ f g, (step shortLibrary (run (step shortLibrary) World.start lastNumbers)
          (.failure (accepts "error" (closedText "9223372036854775807")) upstreamClosed)).frames =
          (run (step shortLibrary) World.start lastNumbers).frames ++ [f] ∧
        g ∈ (run (step shortLibrary) World.start lastNumbers).frames ∧ g.delivered = true ∧
          shortLibrary.sequence f.data = shortLibrary.sequence g.data ∧
            shortLibrary.sequence g.data = .number 9223372036854775807 := by
  constructor
  · intro call hcall m hm
    have hnumbers : lastNumbers.map (Call.number shortLibrary) =
        [some 9223372036854775806, none] := by decide +kernel
    have hmem : call.number shortLibrary ∈ lastNumbers.map (Call.number shortLibrary) :=
      List.mem_map_of_mem hcall
    rw [hnumbers, hm] at hmem
    simp only [List.mem_cons, Option.some.injEq, reduceCtorEq, List.not_mem_nil, or_false] at hmem
    omega
  · refine ⟨⟨"error", closedText "9223372036854775807", true⟩,
      ⟨"response.queued", numbered "response.queued" "9223372036854775807", true⟩, ?_⟩
    decide +kernel

end MaxApi.ResponsesStream
