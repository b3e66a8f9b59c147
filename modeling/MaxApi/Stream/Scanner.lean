import MaxApi.Lib.System
import MaxApi.Lib.Text

/-! # The stream scanner

`StreamScannerHandler`: a goroutine that reads the lines of the upstream and sends their payloads
through a channel of ten places, one that calls the data handler, one that pings the client, and the
loop that waits for the end and then for the goroutines.  Every operation is one move of one party,
so an interleaving is a list of operations; one that is not enabled changes nothing. -/

namespace MaxApi.StreamScanner

open Text

/-! ### Lines -/

/-- What the scanner does with a line. -/
inductive Line where
  | skip
  | data (payload : String)
  | done
  deriving DecidableEq

/-- `strings.TrimSpace(data[5:])`. -/
def payload (line : String) : String := trimSpace (String.ofList (line.toList.drop 5))

def scanLine (line : String) : Line :=
  if line.utf8ByteSize < 6 then .skip
  else if ¬ hasPrefix line "data:" ∧ ¬ hasPrefix line "[DONE]" then .skip
  else if payload line = "" then .skip
  else if hasPrefix (payload line) "[DONE]" then .done
  else .data (payload line)

/-! ### Goroutines -/

inductive Scanner where
  | scanning
  | sending (data : String)
  | returned
  /-- The channel is closed, the stop channel is next. -/
  | closing
  | exited
  deriving DecidableEq

inductive Handler where
  | receiving
  /-- A payload is received, the mutex is not yet taken. -/
  | waiting (data : String)
  | handling (data : String)
  | returned
  | exited
  deriving DecidableEq

inductive Ping where
  | idle
  | waiting
  | pinging
  | exited
  deriving DecidableEq

inductive Main where
  | waiting
  | cancelling
  | stopping
  | joining
  | returned
  deriving DecidableEq

structure World where
  /-- The lines that are not scanned yet. -/
  lines : List String
  scanner : Scanner
  dataChan : List String
  closed : Bool
  stopped : Bool
  cancelled : Bool
  clientGone : Bool
  handler : Handler
  ping : Ping
  main : Main
  /-- The payloads that `dataHandler` was called with. -/
  passed : List String
  deriving DecidableEq

def initial (pingEnabled : Bool) (lines : List String) : World where
  lines := lines
  scanner := .scanning
  dataChan := []
  closed := false
  stopped := false
  cancelled := false
  clientGone := false
  handler := .receiving
  ping := if pingEnabled then .idle else .exited
  main := .waiting
  passed := []

/-- How a call of `dataHandler` ends. -/
inductive Outcome where
  | goOn
  | stop
  | panic
  deriving DecidableEq

inductive Op where
  /-- `Scan` returns a line or the end, and the line is examined. -/
  | scan
  /-- `Scan` ends with an error, or the goroutine panics. -/
  | scanFails
  | send
  | sendStops
  | closeChannel
  | scannerStops
  | receive
  | call
  | handled (outcome : Outcome)
  | handlerStops
  | tick
  | lockPing
  | pinged (ok : Bool)
  | pingExits
  | pingExpires
  | timeout
  | clientLeaves
  | breakLoop
  | cancel
  | mainStops
  | join
  deriving DecidableEq

/-! ### Moves -/

namespace World

variable (w : World)

/-- A line that `Scan` returned. -/
def examine (line : String) (lines : List String) : World :=
  if w.stopped ∨ w.cancelled ∨ w.clientGone then { w with lines := lines, scanner := .returned }
  else
    match scanLine line with
    | .skip => { w with lines := lines }
    | .data data => { w with lines := lines, scanner := .sending data }
    | .done => { w with lines := lines, scanner := .returned }

def scan : World :=
  if w.scanner = .scanning then
    match w.lines with
    | [] => { w with scanner := .returned }
    | line :: lines => w.examine line lines
  else w

def scanFails : World := if w.scanner = .scanning then { w with scanner := .returned } else w

def send : World :=
  match w.scanner with
  | .sending data =>
      if w.dataChan.length < 10 then
        { w with dataChan := w.dataChan ++ [data], scanner := .scanning }
      else w
  | _ => w

def sendStops : World :=
  match w.scanner with
  | .sending _ => if w.stopped ∨ w.cancelled then { w with scanner := .returned } else w
  | _ => w

def closeChannel : World :=
  if w.scanner = .returned then { w with closed := true, scanner := .closing } else w

def scannerStops : World :=
  if w.scanner = .closing then { w with stopped := true, scanner := .exited } else w

def receive : World :=
  if w.handler = .receiving then
    match w.dataChan with
    | data :: rest => { w with dataChan := rest, handler := .waiting data }
    | [] => if w.closed then { w with handler := .returned } else w
  else w

def call : World :=
  match w.handler with
  | .waiting data =>
      if w.ping = .pinging then w
      else { w with handler := .handling data, passed := w.passed ++ [data] }
  | _ => w

def handled (outcome : Outcome) : World :=
  match w.handler with
  | .handling _ => { w with handler := if outcome = .goOn then .receiving else .returned }
  | _ => w

def handlerStops : World :=
  if w.handler = .returned then { w with stopped := true, handler := .exited } else w

def tick : World := if w.ping = .idle then { w with ping := .waiting } else w

/-- The ping takes the mutex of the writer, which the handler holds while it handles. -/
def lockPing : World :=
  if w.ping = .waiting then
    match w.handler with
    | .handling _ => w
    | _ => { w with ping := .pinging }
  else w

def pinged (ok : Bool) : World :=
  if w.ping = .pinging then
    if ok then { w with ping := .idle } else { w with stopped := true, ping := .exited }
  else w

def pingExits : World :=
  if w.ping = .idle ∧ (w.stopped ∨ w.cancelled ∨ w.clientGone) then { w with ping := .exited }
  else w

def pingExpires : World := if w.ping = .idle then { w with ping := .exited } else w

def timeout : World := if w.main = .waiting then { w with main := .cancelling } else w

def clientLeaves : World := { w with clientGone := true }

def breakLoop : World :=
  if w.main = .waiting ∧ (w.stopped ∨ w.clientGone) then { w with main := .cancelling } else w

def cancel : World :=
  if w.main = .cancelling then { w with cancelled := true, main := .stopping } else w

def mainStops : World :=
  if w.main = .stopping then { w with stopped := true, main := .joining } else w

def join : World :=
  if w.main = .joining ∧ w.scanner = .exited ∧ w.handler = .exited ∧ w.ping = .exited then
    { w with main := .returned }
  else w

end World

def step (w : World) : Op → World
  | .scan => w.scan
  | .scanFails => w.scanFails
  | .send => w.send
  | .sendStops => w.sendStops
  | .closeChannel => w.closeChannel
  | .scannerStops => w.scannerStops
  | .receive => w.receive
  | .call => w.call
  | .handled outcome => w.handled outcome
  | .handlerStops => w.handlerStops
  | .tick => w.tick
  | .lockPing => w.lockPing
  | .pinged ok => w.pinged ok
  | .pingExits => w.pingExits
  | .pingExpires => w.pingExpires
  | .timeout => w.timeout
  | .clientLeaves => w.clientLeaves
  | .breakLoop => w.breakLoop
  | .cancel => w.cancel
  | .mainStops => w.mainStops
  | .join => w.join

/-- No timeout, failed ping, client that leaves or scanner error, and a handler that goes on. -/
def undisturbed : Op → Bool
  | .scanFails | .timeout | .clientLeaves => false
  | .pinged ok => ok
  | .handled outcome => outcome = .goOn
  | _ => true

end MaxApi.StreamScanner
