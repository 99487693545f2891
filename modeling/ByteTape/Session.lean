import ByteTape.Execution
import ByteTape.Program.Load

set_option autoImplicit false

namespace ByteTape

structure Session where
  tapeSize : TapeSize := .standard
  policy : PointerPolicy := .bounded
  debug : Bool := false
  source : Source
  sink : Sink
  /-- The text of the last run if that run completed, and empty otherwise. -/
  output : String := ""
  /-- The lines traced so far. -/
  traced : Array String := #[]

/-- Lines as they are printed, each with a line feed. -/
def linesText (lines : Array String) : String :=
  lines.foldl (fun text line => text ++ line ++ "\n") ""

inductive Operation
  | run (text : String)
  | interpret (text : String)
  | setTapeSize (value : SizeValue)
  | setPolicy (policy : PointerPolicy)
  | setDebug (debug : Bool)
  | setSource (source : Source)
  | trace (message : String)

inductive Reply
  | ran (result : Except TapeError Execution)
  | interpreted (result : Except RunError String)
  | sizeRefused (error : SizeError)
  | done

namespace Session

/-- Traces a line, in debug mode only. -/
def trace (s : Session) (message : String) : Session :=
  if s.debug then { s with traced := s.traced.push message } else s

def loadingLine : String :=
  "loading program"

def executingLine : String :=
  "executing program"

def announce (s : Session) : Session :=
  (s.trace loadingLine).trace executingLine

def setTapeSize (s : Session) (value : SizeValue) : Except SizeError Session :=
  (TapeSize.ofValue value).map fun size => { s with tapeSize := size }

/-- The session after a run, without the text of an earlier one. -/
def finish (s : Session) (execution : Execution) : Session :=
  { s with
    source := execution.final.source
    sink := execution.final.sink
    output := match execution.outcome with
      | .completed text => text
      | _ => "" }

/-- What a run answers and leaves behind, given what its execution has come to. -/
def conclude (s : Session) : Except TapeError (Option Execution) →
    Option (Except TapeError Execution × Session)
  | .error e => some (.error e, { s with output := "" })
  | .ok execution => execution.map fun execution => (.ok execution, s.finish execution)

/-- Loads and runs a source text while memory has room for `room` cells. The result is `none` if
`fuel` steps are not enough. -/
def run (room fuel : Nat) (s : Session) (text : String) :
    Option (Except TapeError Execution × Session) :=
  let s := s.announce
  s.conclude <|
    executeSized room fuel (Program.load text) s.tapeSize.cells s.policy s.source s.sink

def interpret (room fuel : Nat) (s : Session) (text : String) :
    Option (Except RunError String × Session) :=
  (s.run room fuel text).map fun (result, s) =>
    match result with
    | .error e => (.error (.tape e), s)
    | .ok execution => (execution.outcome.text.mapError .step, s)

def perform (room fuel : Nat) (s : Session) : Operation → Option (Reply × Session)
  | .run text => (s.run room fuel text).map fun (result, s) => (.ran result, s)
  | .interpret text =>
    (s.interpret room fuel text).map fun (result, s) => (.interpreted result, s)
  | .setTapeSize value =>
    match s.setTapeSize value with
    | .ok s => some (.done, s)
    | .error e => some (.sizeRefused e, s)
  | .setPolicy policy => some (.done, { s with policy := policy })
  | .setDebug debug => some (.done, { s with debug := debug })
  | .setSource source => some (.done, { s with source := source })
  | .trace message => some (.done, s.trace message)

def performAll (room fuel : Nat) : Session → List Operation → Option (List Reply × Session)
  | s, [] => some ([], s)
  | s, op :: rest => do
    let (reply, next) ← s.perform room fuel op
    let (replies, last) ← performAll room fuel next rest
    return (reply :: replies, last)

end Session

end ByteTape
