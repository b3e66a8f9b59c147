import MaxApi.Stream.Scanner

/-! # The scanner delivers the data lines

In an undisturbed run every payload of the lines is on its way exactly once: it was passed to the
handler, or the handler has it, or it is in the channel, or the scanner sends it, or its line is
still to be scanned (`Flow`).  So the handler has got all of them when the scanner handler returns.
The lines that the code takes for data are those of the stream exactly where no line with a bare
terminator comes before the first other one. -/

namespace MaxApi.StreamScanner

open Text Transition

/-! ### What is sent -/

/-- The payloads that the scanner sends for lines. -/
def sent : List String → List String
  | [] => []
  | line :: lines =>
      match scanLine line with
      | .skip => sent lines
      | .data data => data :: sent lines
      | .done => []

/-- The payloads that wait at the handler. -/
def Handler.pending : Handler → List String
  | .waiting data => [data]
  | _ => []

/-- The payloads that the scanner has still to send. -/
def Scanner.pending (lines : List String) : Scanner → List String
  | .scanning => sent lines
  | .sending data => data :: sent lines
  | _ => []

/-- The invariant of undisturbed runs. -/
structure Flow (lines : List String) (w : World) : Prop where
  payloads : w.passed ++ w.handler.pending ++ w.dataChan ++ w.scanner.pending w.lines = sent lines
  client : w.clientGone = false
  closed : w.closed = true ↔ w.scanner = .closing ∨ w.scanner = .exited
  stopped : w.stopped = true → w.closed = true
  cancelled : w.cancelled = true → w.closed = true
  exited : w.scanner = .exited → w.stopped = true
  handler : w.handler = .returned ∨ w.handler = .exited → w.closed = true ∧ w.dataChan = []
  main : w.main ≠ .waiting → w.closed = true
  joined : w.main = .returned → w.handler = .exited

theorem flow_initial (pingEnabled : Bool) (lines : List String) :
    Flow lines (initial pingEnabled lines) := by
  constructor <;> simp [initial, Handler.pending, Scanner.pending]

section steps

variable {lines : List String} {w : World}

theorem Flow.running (h : Flow lines w) (hs : ¬ (w.scanner = .closing ∨ w.scanner = .exited)) :
    ¬ (w.stopped = true ∨ w.cancelled = true ∨ w.clientGone = true) := by
  rintro (hstopped | hcancelled | hgone)
  · exact hs (h.closed.mp (h.stopped hstopped))
  · exact hs (h.closed.mp (h.cancelled hcancelled))
  · rw [h.client] at hgone
    cases hgone

theorem Flow.scan (h : Flow lines w) : Flow lines w.scan := by
  unfold World.scan
  split
  next hscanning =>
    have hclosed := h.closed
    rw [hscanning] at hclosed
    have hpayloads := h.payloads
    rw [hscanning, Scanner.pending] at hpayloads
    have hopen : ¬ (w.scanner = .closing ∨ w.scanner = .exited) := by
      rw [hscanning]
      simp
    split
    next hnil =>
      rw [hnil] at hpayloads
      exact { h with
        payloads := hpayloads
        closed := by simpa using hclosed
        exited := by simp }
    next line rest hlines =>
      unfold World.examine
      rw [if_neg (h.running hopen)]
      rw [hlines, sent] at hpayloads
      split
      next hskip =>
        rw [hskip] at hpayloads
        exact { h with payloads := by rw [hscanning, Scanner.pending]; exact hpayloads }
      next data hdata =>
        rw [hdata] at hpayloads
        exact { h with
          payloads := hpayloads
          closed := by simpa using hclosed
          exited := by simp }
      next hdone =>
        rw [hdone] at hpayloads
        exact { h with
          payloads := hpayloads
          closed := by simpa using hclosed
          exited := by simp }
  · exact h

theorem Flow.send (h : Flow lines w) : Flow lines w.send := by
  unfold World.send
  split
  next data hsending =>
    split
    · have hclosed := h.closed
      rw [hsending] at hclosed
      have hpayloads := h.payloads
      rw [hsending, Scanner.pending] at hpayloads
      have hopen : ¬ w.closed = true := by
        rw [hclosed]
        simp
      exact { h with
        payloads := by
          rw [← hpayloads, Scanner.pending]
          simp
        closed := by simpa using hclosed
        exited := by simp
        handler := fun hhandler => absurd (h.handler hhandler).1 hopen }
    · exact h
  · exact h

/-- The scanner is not stopped while it sends. -/
theorem Flow.sendStops (h : Flow lines w) : Flow lines w.sendStops := by
  unfold World.sendStops
  split
  next data hsending =>
    have hopen : ¬ (w.scanner = .closing ∨ w.scanner = .exited) := by
      rw [hsending]
      simp
    rw [if_neg fun hs => h.running hopen (hs.imp_right Or.inl)]
    exact h
  · exact h

theorem Flow.closeChannel (h : Flow lines w) : Flow lines w.closeChannel := by
  unfold World.closeChannel
  split
  next hreturned =>
    have hpayloads := h.payloads
    rw [hreturned, Scanner.pending] at hpayloads
    · exact { h with
        payloads := hpayloads
        closed := by simp
        stopped := fun _ => rfl
        cancelled := fun _ => rfl
        exited := by simp
        handler := fun hhandler => ⟨rfl, (h.handler hhandler).2⟩
        main := fun _ => rfl }
    · simp
    · simp
  · exact h

theorem Flow.scannerStops (h : Flow lines w) : Flow lines w.scannerStops := by
  unfold World.scannerStops
  split
  next hclosing =>
    have hclosed := h.closed
    rw [hclosing] at hclosed
    have hpayloads := h.payloads
    rw [hclosing] at hpayloads
    exact { h with
      payloads := hpayloads
      closed := by simpa using hclosed
      stopped := fun _ => by simpa using hclosed
      exited := by simp }
  · exact h

theorem Flow.receive (h : Flow lines w) : Flow lines w.receive := by
  unfold World.receive
  split
  next hreceiving =>
    have hpayloads := h.payloads
    rw [hreceiving] at hpayloads
    have hjoined : ¬ w.main = .returned := by
      intro hmain
      rw [h.joined hmain] at hreceiving
      cases hreceiving
    split
    next data rest hchan =>
      rw [hchan] at hpayloads
      exact { h with
        payloads := by
          rw [← hpayloads]
          simp [Handler.pending]
        handler := by simp
        joined := fun hmain => absurd hmain hjoined }
    next hempty =>
      split
      next hclosed =>
        exact { h with
          payloads := hpayloads
          handler := fun _ => ⟨hclosed, hempty⟩
          joined := fun hmain => absurd hmain hjoined }
      · exact h
  · exact h

theorem Flow.call (h : Flow lines w) : Flow lines w.call := by
  unfold World.call
  split
  next data hwaiting =>
    split
    · exact h
    · have hpayloads := h.payloads
      rw [hwaiting] at hpayloads
      exact { h with
        payloads := by
          rw [← hpayloads]
          simp [Handler.pending]
        handler := by simp
        joined := fun hmain => by
          have hexited := h.joined hmain
          rw [hwaiting] at hexited
          cases hexited }
  · exact h

theorem Flow.handled (h : Flow lines w) : Flow lines (w.handled .goOn) := by
  unfold World.handled
  split
  next data hhandling =>
    have hpayloads := h.payloads
    rw [hhandling] at hpayloads
    exact { h with
      payloads := hpayloads
      handler := by simp
      joined := fun hmain => by
        have hexited := h.joined hmain
        rw [hhandling] at hexited
        cases hexited }
  · exact h

theorem Flow.handlerStops (h : Flow lines w) : Flow lines w.handlerStops := by
  unfold World.handlerStops
  split
  next hreturned =>
    have hpayloads := h.payloads
    rw [hreturned] at hpayloads
    have hdrained := h.handler (.inl hreturned)
    exact { h with
      payloads := hpayloads
      stopped := fun _ => hdrained.1
      exited := fun _ => rfl
      handler := fun _ => hdrained
      joined := fun _ => rfl }
  · exact h

/-- The ping touches none of what the invariant reads. -/
theorem Flow.ping (h : Flow lines w) :
    Flow lines w.tick ∧ Flow lines w.lockPing ∧ Flow lines (w.pinged true) ∧
      Flow lines w.pingExits ∧ Flow lines w.pingExpires := by
  have hping : ∀ ping : Ping, Flow lines { w with ping := ping } := fun _ => { h with }
  refine ⟨?_, ?_, ?_, ?_, ?_⟩
  · unfold World.tick
    split
    · exact hping _
    · exact h
  · unfold World.lockPing
    split
    · split
      · exact h
      · exact hping _
    · exact h
  · unfold World.pinged
    split
    · exact hping _
    · exact h
  · unfold World.pingExits
    split
    · exact hping _
    · exact h
  · unfold World.pingExpires
    split
    · exact hping _
    · exact h

theorem Flow.breakLoop (h : Flow lines w) : Flow lines w.breakLoop := by
  unfold World.breakLoop
  split
  next hbreak =>
    have hstopped : w.stopped = true := by
      rcases hbreak.2 with hstopped | hgone
      · exact hstopped
      · rw [h.client] at hgone
        cases hgone
    exact { h with
      main := fun _ => h.stopped hstopped
      joined := by simp }
  · exact h

theorem Flow.cancel (h : Flow lines w) : Flow lines w.cancel := by
  unfold World.cancel
  split
  next hcancelling =>
    have hclosed : w.closed = true := by
      apply h.main
      rw [hcancelling]
      simp
    exact { h with
      cancelled := fun _ => hclosed
      main := fun _ => hclosed
      joined := by simp }
  · exact h

theorem Flow.mainStops (h : Flow lines w) : Flow lines w.mainStops := by
  unfold World.mainStops
  split
  next hstopping =>
    have hclosed : w.closed = true := by
      apply h.main
      rw [hstopping]
      simp
    exact { h with
      stopped := fun _ => hclosed
      exited := fun _ => rfl
      main := fun _ => hclosed
      joined := by simp }
  · exact h

theorem Flow.join (h : Flow lines w) : Flow lines w.join := by
  unfold World.join
  split
  next hjoin =>
    have hclosed : w.closed = true := h.closed.mpr (.inr hjoin.2.1)
    exact { h with
      main := fun _ => hclosed
      joined := fun _ => hjoin.2.2.1 }
  · exact h

theorem Flow.undisturbed_step (h : Flow lines w) {op : Op} (hop : undisturbed op = true) :
    Flow lines (step w op) := by
  cases op with
  | scan => exact h.scan
  | scanFails => cases hop
  | send => exact h.send
  | sendStops => exact h.sendStops
  | closeChannel => exact h.closeChannel
  | scannerStops => exact h.scannerStops
  | receive => exact h.receive
  | call => exact h.call
  | handled outcome =>
      have hgoOn : outcome = .goOn := by simpa [undisturbed] using hop
      rw [hgoOn]
      exact h.handled
  | handlerStops => exact h.handlerStops
  | tick => exact h.ping.1
  | lockPing => exact h.ping.2.1
  | pinged ok =>
      have hok : ok = true := hop
      rw [hok]
      exact h.ping.2.2.1
  | pingExits => exact h.ping.2.2.2.1
  | pingExpires => exact h.ping.2.2.2.2
  | timeout => cases hop
  | clientLeaves => cases hop
  | breakLoop => exact h.breakLoop
  | cancel => exact h.cancel
  | mainStops => exact h.mainStops
  | join => exact h.join

end steps

/-! ### Runs end -/

def Scanner.left (lines : List String) : Scanner → ℕ
  | .scanning => 8 * lines.length + 3
  | .sending _ => 8 * lines.length + 10
  | .returned => 2
  | .closing => 1
  | .exited => 0

def Handler.left : Handler → ℕ
  | .receiving => 2
  | .waiting _ => 5
  | .handling _ => 4
  | .returned => 1
  | .exited => 0

def Ping.left : Ping → ℕ
  | .idle => 1
  | .waiting => 3
  | .pinging => 2
  | .exited => 0

def Main.left : Main → ℕ
  | .waiting => 4
  | .cancelling => 3
  | .stopping => 2
  | .joining => 1
  | .returned => 0

/-- A bound of the moves that are left without ticks of the ping. -/
def World.left (w : World) : ℕ :=
  w.scanner.left w.lines + 4 * w.dataChan.length + w.handler.left + w.ping.left + w.main.left

section progress

variable {lines : List String} {w : World}

theorem scan_left (hscanning : w.scanner = .scanning) : w.scan.left < w.left := by
  unfold World.scan
  rw [if_pos hscanning]
  split
  next hnil =>
    simp only [World.left, hscanning, Scanner.left]
    omega
  next line rest hlines =>
    unfold World.examine
    split
    · simp only [World.left, hscanning, hlines, Scanner.left, List.length_cons]
      omega
    · split
      · simp only [World.left, hscanning, hlines, Scanner.left, List.length_cons]
        omega
      · simp only [World.left, hscanning, hlines, Scanner.left, List.length_cons]
        omega
      · simp only [World.left, hscanning, hlines, Scanner.left, List.length_cons]
        omega

theorem send_left {data : String} (hsending : w.scanner = .sending data)
    (hroom : w.dataChan.length < 10) : w.send.left < w.left := by
  have hsend : w.send = { w with dataChan := w.dataChan ++ [data], scanner := .scanning } := by
    unfold World.send
    rw [hsending]
    exact if_pos hroom
  rw [hsend]
  simp only [World.left, hsending, Scanner.left, List.length_append, List.length_singleton]
  omega

/-- The handler moves on while it has payloads or may end, unless the ping holds the mutex. -/
theorem handler_left (hping : w.ping ≠ .pinging) (hexited : w.handler ≠ .exited)
    (hchan : w.dataChan ≠ [] ∨ w.closed = true) :
    ∃ op, undisturbed op = true ∧ (step w op).left < w.left := by
  cases hhandler : w.handler with
  | receiving =>
      refine ⟨.receive, rfl, ?_⟩
      show w.receive.left < w.left
      unfold World.receive
      rw [if_pos hhandler]
      split
      next data rest heq =>
        simp only [World.left, hhandler, heq, Handler.left, List.length_cons]
        omega
      next heq =>
        rw [if_pos (hchan.resolve_left fun hne => hne heq)]
        simp only [World.left, hhandler, Handler.left]
        omega
  | waiting data =>
      refine ⟨.call, rfl, ?_⟩
      have hcall : w.call = { w with handler := .handling data, passed := w.passed ++ [data] } := by
        unfold World.call
        rw [hhandler]
        exact if_neg hping
      show w.call.left < w.left
      rw [hcall]
      simp only [World.left, hhandler, Handler.left]
      omega
  | handling data =>
      refine ⟨.handled .goOn, rfl, ?_⟩
      have hhandled : w.handled .goOn = { w with handler := .receiving } := by
        unfold World.handled
        rw [hhandler]
        rfl
      show (w.handled .goOn).left < w.left
      rw [hhandled]
      simp only [World.left, hhandler, Handler.left]
      omega
  | returned =>
      refine ⟨.handlerStops, rfl, ?_⟩
      show w.handlerStops.left < w.left
      unfold World.handlerStops
      rw [if_pos hhandler]
      simp only [World.left, hhandler, Handler.left]
      omega
  | exited => exact absurd hhandler hexited

theorem ping_left (hpinging : w.ping = .pinging) : (w.pinged true).left < w.left := by
  unfold World.pinged
  rw [if_pos hpinging, if_pos rfl]
  simp only [World.left, hpinging, Ping.left]
  omega

/-- The ping ends once the stop channel is closed. -/
theorem ping_ends (hstopped : w.stopped = true) (hhandler : w.handler = .exited)
    (hping : w.ping ≠ .exited) :
    ∃ op, undisturbed op = true ∧ (step w op).left < w.left := by
  cases heq : w.ping with
  | idle =>
      refine ⟨.pingExits, rfl, ?_⟩
      show w.pingExits.left < w.left
      unfold World.pingExits
      rw [if_pos ⟨heq, .inl hstopped⟩]
      simp only [World.left, heq, Ping.left]
      omega
  | waiting =>
      refine ⟨.lockPing, rfl, ?_⟩
      have hlock : w.lockPing = { w with ping := .pinging } := by
        unfold World.lockPing
        rw [if_pos heq, hhandler]
      show w.lockPing.left < w.left
      rw [hlock]
      simp only [World.left, heq, Ping.left]
      omega
  | pinging => exact ⟨.pinged true, rfl, ping_left heq⟩
  | exited => exact absurd heq hping

theorem main_left (hstopped : w.stopped = true) (hscanner : w.scanner = .exited)
    (hhandler : w.handler = .exited) (hping : w.ping = .exited) (hmain : w.main ≠ .returned) :
    ∃ op, undisturbed op = true ∧ (step w op).left < w.left := by
  cases heq : w.main with
  | waiting =>
      refine ⟨.breakLoop, rfl, ?_⟩
      show w.breakLoop.left < w.left
      unfold World.breakLoop
      rw [if_pos ⟨heq, .inl hstopped⟩]
      simp only [World.left, heq, Main.left]
      omega
  | cancelling =>
      refine ⟨.cancel, rfl, ?_⟩
      show w.cancel.left < w.left
      unfold World.cancel
      rw [if_pos heq]
      simp only [World.left, heq, Main.left]
      omega
  | stopping =>
      refine ⟨.mainStops, rfl, ?_⟩
      show w.mainStops.left < w.left
      unfold World.mainStops
      rw [if_pos heq]
      simp only [World.left, heq, Main.left]
      omega
  | joining =>
      refine ⟨.join, rfl, ?_⟩
      show w.join.left < w.left
      unfold World.join
      rw [if_pos ⟨heq, hscanner, hhandler, hping⟩]
      simp only [World.left, heq, Main.left]
      omega
  | returned => exact absurd heq hmain

/-- Until the scanner handler returns, some party has a move that is not a tick. -/
theorem Flow.moves (h : Flow lines w) (hmain : w.main ≠ .returned) :
    ∃ op, undisturbed op = true ∧ (step w op).left < w.left := by
  by_cases hpinging : w.ping = .pinging
  · exact ⟨.pinged true, rfl, ping_left hpinging⟩
  cases hscanner : w.scanner with
  | scanning => exact ⟨.scan, rfl, scan_left hscanner⟩
  | sending data =>
      by_cases hroom : w.dataChan.length < 10
      · exact ⟨.send, rfl, send_left hscanner hroom⟩
      · have hchan : w.dataChan ≠ [] := by
          intro hnil
          rw [hnil] at hroom
          simp at hroom
        exact handler_left hpinging (fun hexited => hchan (h.handler (.inr hexited)).2) (.inl hchan)
  | returned =>
      refine ⟨.closeChannel, rfl, ?_⟩
      show w.closeChannel.left < w.left
      unfold World.closeChannel
      rw [if_pos hscanner]
      simp only [World.left, hscanner, Scanner.left]
      omega
  | closing =>
      refine ⟨.scannerStops, rfl, ?_⟩
      show w.scannerStops.left < w.left
      unfold World.scannerStops
      rw [if_pos hscanner]
      simp only [World.left, hscanner, Scanner.left]
      omega
  | exited =>
      have hstopped := h.exited hscanner
      by_cases hhandler : w.handler = .exited
      · by_cases hping : w.ping = .exited
        · exact main_left hstopped hscanner hhandler hping hmain
        · exact ping_ends hstopped hhandler hping
      · exact handler_left hpinging hhandler (.inr (h.stopped hstopped))

/-- Every undisturbed run can be completed. -/
theorem Flow.completes (h : Flow lines w) :
    ∃ ops : List Op, (∀ op ∈ ops, undisturbed op = true) ∧ (run step w ops).main = .returned := by
  induction hn : w.left using Nat.strong_induction_on generalizing w with
  | _ n ih =>
      by_cases hmain : w.main = .returned
      · exact ⟨[], by simp, hmain⟩
      · obtain ⟨op, hop, hlt⟩ := h.moves hmain
        obtain ⟨ops, hops, hend⟩ := ih _ (hn ▸ hlt) (h.undisturbed_step hop) rfl
        refine ⟨op :: ops, ?_, hend⟩
        intro o ho
        rcases List.mem_cons.mp ho with rfl | ho
        · exact hop
        · exact hops o ho

end progress

/-! ### Stops of the handler -/

/-- The moves of the handler. -/
def handlerMove : Op → Bool
  | .receive | .call | .handled _ | .handlerStops => true
  | _ => false

theorem scan_frame (w : World) : w.scan.handler = w.handler ∧ w.scan.passed = w.passed := by
  unfold World.scan
  split
  · split
    · exact ⟨rfl, rfl⟩
    · unfold World.examine
      split
      · exact ⟨rfl, rfl⟩
      · split <;> exact ⟨rfl, rfl⟩
  · exact ⟨rfl, rfl⟩

/-- The other parties touch neither the state of the handler nor its calls. -/
theorem step_frame (w : World) {op : Op} (hop : handlerMove op = false) :
    (step w op).handler = w.handler ∧ (step w op).passed = w.passed := by
  cases op with
  | scan => exact scan_frame w
  | receive => cases hop
  | call => cases hop
  | handled outcome => cases hop
  | handlerStops => cases hop
  | clientLeaves => exact ⟨rfl, rfl⟩
  | scanFails | closeChannel | scannerStops | tick | pingExits | pingExpires | timeout | breakLoop
  | cancel | mainStops | join =>
      simp only [step, World.scanFails, World.closeChannel, World.scannerStops, World.tick,
        World.pingExits, World.pingExpires, World.timeout, World.breakLoop, World.cancel,
        World.mainStops, World.join]
      split <;> exact ⟨rfl, rfl⟩
  | send | sendStops | lockPing | pinged =>
      simp only [step, World.send, World.sendStops, World.lockPing, World.pinged]
      split
      · split <;> exact ⟨rfl, rfl⟩
      · exact ⟨rfl, rfl⟩

/-- A handler that has ended is not called again. -/
theorem ended_step {w : World} (h : w.handler = .returned ∨ w.handler = .exited) (op : Op) :
    ((step w op).handler = .returned ∨ (step w op).handler = .exited) ∧
      (step w op).passed = w.passed := by
  by_cases hop : handlerMove op = true
  · cases op with
    | receive =>
        have hsame : w.receive = w := by
          unfold World.receive
          rcases h with h | h <;> rw [if_neg (by rw [h]; simp)]
        show (w.receive.handler = .returned ∨ w.receive.handler = .exited) ∧ _
        rw [show step w .receive = w from hsame, hsame]
        exact ⟨h, rfl⟩
    | call =>
        have hsame : step w .call = w := by
          show w.call = w
          unfold World.call
          rcases h with h | h <;> rw [h]
        rw [hsame]
        exact ⟨h, rfl⟩
    | handled outcome =>
        have hsame : step w (.handled outcome) = w := by
          show w.handled outcome = w
          unfold World.handled
          rcases h with h | h <;> rw [h]
        rw [hsame]
        exact ⟨h, rfl⟩
    | handlerStops =>
        show (w.handlerStops.handler = .returned ∨ w.handlerStops.handler = .exited) ∧
          w.handlerStops.passed = w.passed
        unfold World.handlerStops
        split
        · exact ⟨.inr rfl, rfl⟩
        · exact ⟨h, rfl⟩
    | _ => cases hop
  · obtain ⟨hhandler, hpassed⟩ := step_frame w (Bool.eq_false_iff.mpr hop)
    rw [hhandler]
    exact ⟨h, hpassed⟩

/-! ### Lines of the stream -/

/-- A line of which the payload ends the stream. -/
def DoneData (line : String) : Prop :=
  hasPrefix line "data:" = true ∧ hasPrefix (payload line) "[DONE]" = true

instance (line : String) : Decidable (DoneData line) := instDecidableAnd

/-- A line that ends the stream, with or without the prefix of the data. -/
def Terminates (line : String) : Prop := hasPrefix line "[DONE]" = true ∨ DoneData line

instance (line : String) : Decidable (Terminates line) := instDecidableOr

/-- The payloads of the data lines before the first line that ends the stream. -/
def expected : List String → List String
  | [] => []
  | line :: lines =>
      if Terminates line then []
      else if hasPrefix line "data:" ∧ payload line ≠ "" then payload line :: expected lines
      else expected lines

/-- Before every line that begins with a bare terminator stands one with the data prefix. -/
def BareLast (lines : List String) : Prop :=
  ∀ pre line post, lines = pre ++ line :: post → hasPrefix line "[DONE]" = true →
    ∃ l ∈ pre, DoneData l

theorem bareLast_cons {line : String} {lines : List String} :
    BareLast (line :: lines) ↔
      ¬ hasPrefix line "[DONE]" = true ∧ (DoneData line ∨ BareLast lines) := by
  constructor
  · intro h
    refine ⟨fun hbare => ?_, ?_⟩
    · obtain ⟨l, hl, -⟩ := h [] line lines rfl hbare
      cases hl
    · by_cases hdone : DoneData line
      · exact .inl hdone
      · refine .inr fun pre l post heq hbare => ?_
        obtain ⟨d, hd, hdata⟩ := h (line :: pre) l post (by rw [heq]; rfl) hbare
        rcases List.mem_cons.mp hd with rfl | hd
        · exact absurd hdata hdone
        · exact ⟨d, hd, hdata⟩
  · rintro ⟨hbare, h⟩ pre l post heq hl
    cases pre with
    | nil =>
        obtain ⟨rfl, -⟩ := List.cons.inj heq
        exact absurd hl hbare
    | cons p pre =>
        obtain ⟨rfl, hrest⟩ := List.cons.inj heq
        rcases h with hdone | h
        · exact ⟨line, List.mem_cons_self, hdone⟩
        · obtain ⟨d, hd, hdata⟩ := h pre l post hrest hl
          exact ⟨d, List.mem_cons_of_mem _ hd, hdata⟩

theorem hasPrefix_iff {s p : String} :
    hasPrefix s p = true ↔ ∃ t : List Char, s.toList = p.toList ++ t := by
  unfold hasPrefix
  rw [List.isPrefixOf_iff_prefix]
  constructor
  · rintro ⟨t, ht⟩
    exact ⟨t, ht.symm⟩
  · rintro ⟨t, ht⟩
    exact ⟨t, ht.symm⟩

/-- The length test does not stop a line that begins with a bare terminator. -/
theorem bytes_of_bare {line : String} (h : hasPrefix line "[DONE]" = true) :
    ¬ line.utf8ByteSize < 6 := by
  obtain ⟨t, ht⟩ := hasPrefix_iff.mp h
  have hline : line = "[DONE]" ++ String.ofList t := by
    rw [← String.toList_inj, ht, String.toList_append, String.toList_ofList (l := t)]
  rw [hline, String.utf8ByteSize_append]
  have hsix : "[DONE]".utf8ByteSize = 6 := by decide
  omega

/-- Nor one with a payload. -/
theorem bytes_of_payload {line : String} (h : hasPrefix line "data:" = true)
    (hpayload : payload line ≠ "") : ¬ line.utf8ByteSize < 6 := by
  obtain ⟨t, ht⟩ := hasPrefix_iff.mp h
  have hline : line = "data:" ++ String.ofList t := by
    rw [← String.toList_inj, ht, String.toList_append, String.toList_ofList (l := t)]
  have ht' : t ≠ [] := by
    intro hnil
    apply hpayload
    unfold payload
    rw [ht, hnil]
    rfl
  have hpos : (String.ofList t).utf8ByteSize ≠ 0 := by
    rw [Ne, String.utf8ByteSize_eq_zero_iff]
    intro hempty
    apply ht'
    rw [← String.toList_ofList (l := t), hempty]
    rfl
  rw [hline, String.utf8ByteSize_append]
  have hfive : "data:".utf8ByteSize = 5 := by decide
  omega

theorem trim_cons {c : Char} (hc : isSpace c = false) (l : List Char) :
    ∃ r, trim isSpace (c :: l) = c :: r := by
  unfold trim
  rw [List.dropWhile_cons_of_neg (by rw [hc]; simp)]
  have hpre : (c :: l).rdropWhile isSpace <+: c :: l :=
    List.rdropWhile_prefix isSpace _
  cases hr : (c :: l).rdropWhile isSpace with
  | nil =>
      have hall := List.rdropWhile_eq_nil_iff.mp hr c List.mem_cons_self
      rw [hc] at hall
      cases hall
  | cons d r =>
      rw [hr] at hpre
      obtain ⟨rfl, -⟩ := List.cons_prefix_cons.mp hpre
      exact ⟨r, rfl⟩

/-- The scanner takes the line of a bare terminator for data. -/
theorem scanLine_bare {line : String} (h : hasPrefix line "[DONE]" = true) :
    ∃ data, scanLine line = .data data := by
  obtain ⟨t, ht⟩ := hasPrefix_iff.mp h
  have hdrop : line.toList.drop 5 = ']' :: t := by
    rw [ht]
    rfl
  obtain ⟨r, hr⟩ := trim_cons (c := ']') (by decide) t
  have hpayload : (payload line).toList = ']' :: r := by
    unfold payload trimSpace
    rw [String.toList_ofList, String.toList_ofList, hdrop, hr]
  refine ⟨payload line, ?_⟩
  unfold scanLine
  rw [if_neg (bytes_of_bare h), if_neg (fun hn => hn.2 h), if_neg, if_neg]
  · intro hdone
    obtain ⟨u, hu⟩ := hasPrefix_iff.mp hdone
    rw [hpayload] at hu
    exact absurd (List.cons.inj hu).1 (by decide)
  · intro hempty
    rw [hempty] at hpayload
    cases hpayload

/-- All other lines are read as the stream means them. -/
theorem scanLine_other {line : String} (h : ¬ hasPrefix line "[DONE]" = true) :
    scanLine line =
      if DoneData line then .done
      else if hasPrefix line "data:" ∧ payload line ≠ "" then .data (payload line)
      else .skip := by
  unfold scanLine
  by_cases hdata : hasPrefix line "data:" = true
  · rw [if_neg (c := ¬ hasPrefix line "data:" = true ∧ _) fun hn => hn.1 hdata]
    by_cases hempty : payload line = ""
    · have hdone : ¬ DoneData line := by
        rintro ⟨-, hd⟩
        rw [hempty] at hd
        exact absurd hd (by decide)
      have hno : ¬ (hasPrefix line "data:" = true ∧ payload line ≠ "") := fun hn => hn.2 hempty
      rw [if_neg hdone, if_neg hno, if_pos hempty, ite_self]
    · rw [if_neg (bytes_of_payload hdata hempty), if_neg hempty]
      by_cases hd : hasPrefix (payload line) "[DONE]" = true
      · have hdone : DoneData line := ⟨hdata, hd⟩
        rw [if_pos hd, if_pos hdone]
      · have hdone : ¬ DoneData line := fun hn => hd hn.2
        rw [if_neg hd, if_neg hdone, if_pos ⟨hdata, hempty⟩]
  · have hdone : ¬ DoneData line := fun hd => hdata hd.1
    have hno : ¬ (hasPrefix line "data:" = true ∧ payload line ≠ "") := fun hn => hdata hn.1
    rw [if_pos (c := ¬ hasPrefix line "data:" = true ∧ _) ⟨hdata, h⟩, ite_self, if_neg hdone,
      if_neg hno]

/-- The scanner sends the expected payloads exactly if no bare terminator comes first. -/
theorem sent_eq_expected_iff (lines : List String) :
    sent lines = expected lines ↔ BareLast lines := by
  induction lines with
  | nil =>
      refine iff_of_true rfl ?_
      intro pre line post heq
      exact absurd heq (by simp)
  | cons line lines ih =>
      rw [bareLast_cons, sent, expected]
      by_cases hbare : hasPrefix line "[DONE]" = true
      · obtain ⟨data, hdata⟩ := scanLine_bare hbare
        have hterm : Terminates line := .inl hbare
        rw [hdata, if_pos hterm]
        simp [hbare]
      · rw [scanLine_other hbare]
        by_cases hdone : DoneData line
        · have hterm : Terminates line := .inr hdone
          rw [if_pos hdone, if_pos hterm]
          simp [hbare, hdone]
        · have hterm : ¬ Terminates line := fun h => h.elim hbare hdone
          rw [if_neg hdone, if_neg hterm, or_iff_right hdone, ← ih, and_iff_right hbare]
          by_cases hdata : hasPrefix line "data:" = true ∧ payload line ≠ ""
          · rw [if_pos hdata, if_pos hdata]
            exact List.cons_inj_right _
          · rw [if_neg hdata, if_neg hdata]

/-! ### Delivery -/

/-- **Main.**  Undisturbed runs can be completed, and a completed one has called the handler with
the payloads of the data lines before the first terminator, each once and in their order, exactly if
no line that begins with a bare terminator comes before the first data line that ends the stream.
And in any run a handler that stops the stream, or panics, is not called again. -/
theorem delivers_iff (pingEnabled : Bool) (lines : List String) (ops : List Op) :
    ((∀ op ∈ ops, undisturbed op = true) →
      ((run step (initial pingEnabled lines) ops).main = .returned →
        ((run step (initial pingEnabled lines) ops).passed = expected lines ↔ BareLast lines)) ∧
      ∃ ops' : List Op, (∀ op ∈ ops', undisturbed op = true) ∧
        (run step (initial pingEnabled lines) (ops ++ ops')).main = .returned) ∧
    ∀ data outcome ops', (run step (initial pingEnabled lines) ops).handler = .handling data →
      outcome ≠ .goOn →
        (run step (initial pingEnabled lines) (ops ++ .handled outcome :: ops')).passed =
          (run step (initial pingEnabled lines) ops).passed := by
  refine ⟨fun hops => ?_, ?_⟩
  · have hflow : Flow lines (run step (initial pingEnabled lines) ops) :=
      run_invariant_mem step ops (fun w op hop h => h.undisturbed_step (hops op hop)) _
        (flow_initial pingEnabled lines)
    refine ⟨fun hmain => ?_, ?_⟩
    · have hexited := hflow.joined hmain
      obtain ⟨hclosed, hempty⟩ := hflow.handler (.inr hexited)
      have hpayloads := hflow.payloads
      rw [hexited, hempty] at hpayloads
      have hpassed : (run step (initial pingEnabled lines) ops).passed = sent lines := by
        rcases hflow.closed.mp hclosed with hscanner | hscanner
        · rw [hscanner] at hpayloads
          simpa [Handler.pending, Scanner.pending] using hpayloads
        · rw [hscanner] at hpayloads
          simpa [Handler.pending, Scanner.pending] using hpayloads
      rw [hpassed, sent_eq_expected_iff]
    · obtain ⟨ops', hops', hend⟩ := hflow.completes
      exact ⟨ops', hops', by rw [run_append]; exact hend⟩
  · intro data outcome ops' hhandling hstop
    rw [run_append, run_cons]
    generalize run step (initial pingEnabled lines) ops = w at hhandling
    have hended : step w (.handled outcome) = { w with handler := .returned } := by
      show w.handled outcome = _
      unfold World.handled
      rw [hhandling]
      show ({ w with handler := if outcome = .goOn then .receiving else .returned } : World) = _
      rw [if_neg hstop]
    rw [hended]
    have hrun := run_invariant step
      (I := fun v => (v.handler = .returned ∨ v.handler = .exited) ∧ v.passed = w.passed)
      (fun v op h => ⟨(ended_step h.1 op).1, (ended_step h.1 op).2.trans h.2⟩) ops'
      { w with handler := .returned } ⟨.inl rfl, rfl⟩
    exact hrun.2

/-- The moves of a stream of three payloads, in an order in which the handler waits for the end. -/
def threePayloads : List Op :=
  [.scan, .send, .scan, .send, .scan, .send, .scan, .closeChannel, .tick, .lockPing, .pinged true,
    .scannerStops, .receive, .call, .handled .goOn, .receive, .call, .handled .goOn,
    .receive, .call, .handled .goOn, .receive, .handlerStops, .pingExits, .breakLoop, .cancel,
    .mainStops, .join]

/-- Three data lines and a terminator. -/
theorem delivers_iff_three :
    (run step (initial true ["data:a", "data: b ", "data:c", "data: [DONE]", "data:d"])
      threePayloads).passed = ["a", "b", "c"] := by
  have hdelivers := delivers_iff true ["data:a", "data: b ", "data:c", "data: [DONE]", "data:d"]
    threePayloads
  have hlast : BareLast ["data:a", "data: b ", "data:c", "data: [DONE]", "data:d"] :=
    (sent_eq_expected_iff _).mp (by decide +kernel)
  exact ((hdelivers.1 (by decide)).1 (by decide +kernel)).mpr hlast

/-- A bare terminator is passed to the handler as its last bracket, and the stream goes on. -/
theorem bare_terminator_passed :
    (∀ op ∈ threePayloads, undisturbed op = true) ∧
      (run step (initial true ["data:a", "[DONE]", "data:b"]) threePayloads).main = .returned ∧
        (run step (initial true ["data:a", "[DONE]", "data:b"]) threePayloads).passed =
          ["a", "]", "b"] ∧
          expected ["data:a", "[DONE]", "data:b"] = ["a"] := by
  decide +kernel

end MaxApi.StreamScanner
