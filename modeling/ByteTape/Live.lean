import ByteTape.CommandLine.Report

set_option autoImplicit false

namespace ByteTape

/-- How a run stands after a turn. -/
inductive Standing
  | running (m : Machine)
  | over (result : Except StepError String)

namespace Machine

def reads (m : Machine) : Bool :=
  m.instruction? = some .read

/-- The machine with a source that has one answer and a sink that has taken nothing yet. -/
def answered (m : Machine) (reading : Reading) : Config :=
  ⟨m, { readings := fun _ => reading }, .unlimited⟩

/-- One turn of a run: a step, with `reading` as the answer of the source if the step asks for one.
The bytes are those that the step gives away. -/
def turn (m : Machine) (reading : Reading) : Standing × Array UInt8 :=
  if m.done then (.over (.ok (outputText m.output)), #[])
  else
    match (m.answered reading).step with
    | (c, none) => (.running c.machine, c.sink.received)
    | (c, some e) => (.over (.error e), c.sink.received)

/-- How a run comes out that takes a reading from the source when a turn asks for one, and adds the
bytes of each turn to `written`: the result, the source at the end, and all that was written. -/
def turns : Nat → Machine → Source → Array UInt8 →
    Option (Except StepError String × Source × Array UInt8)
  | 0, _, _, _ => none
  | n + 1, m, source, written =>
    let after := if m.reads then source.read.2 else source
    match m.turn (source.unread 0) with
    | (.running next, bytes) => turns n next after (written ++ bytes)
    | (.over result, bytes) => some (result, after, written ++ bytes)

end Machine

namespace CommandLine.Job

/-- The machine that is to run: the tape comes first, and then the brackets. -/
def machine (room : Nat) (j : Job) : Except RunError Machine := do
  let m ← (Machine.ofSize room (Program.load j.text) j.tapeSize.cells j.policy).mapError .tape
  let _ ← m.program.jumps.mapError fun e => .step (.fault (.unbalanced e))
  return m

/-- What is traced when the job begins. -/
def announcement (j : Job) : String :=
  linesText (j.session (.ofBytes #[]) .unlimited).announce.traced

/-- The report on a job whose machine, if there is one, is run turn by turn. -/
def report (n : Nat) (j : Job) (source : Source) : Except RunError Machine → Option Report
  | .error e => some (.ofResult j.announcement #[] source (.error e))
  | .ok m =>
    (m.turns n source #[]).map fun (result, source, written) =>
      .ofResult j.announcement written source (result.mapError .step)

def live (room n : Nat) (j : Job) (source : Source) : Option Report :=
  j.report n source (j.machine room)

end CommandLine.Job

end ByteTape
