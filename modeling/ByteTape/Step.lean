import ByteTape.Device.Source
import ByteTape.Machine

set_option autoImplicit false

namespace ByteTape

structure Config where
  machine : Machine
  source : Source
  sink : Sink

namespace Config

/-- A comment takes a step, too. -/
def skip : Config → Config × Option StepError
  | ⟨m, source, sink⟩ => (⟨{ m with ip := m.ip + 1 }, source, sink⟩, none)

def shift (delta : Int) : Config → Config × Option StepError
  | ⟨m, source, sink⟩ =>
    match m.target delta with
    | .ok pointer => (⟨{ m with pointer := pointer, ip := m.ip + 1 }, source, sink⟩, none)
    | .error e => (⟨m, source, sink⟩, some e)

/-- Replaces the value of the current cell. -/
def alter (f : UInt8 → UInt8) : Config → Config × Option StepError
  | ⟨m, source, sink⟩ =>
    if m.pointer < m.tape.size then
      (⟨{ m with tape := m.tape.modify m.pointer f, ip := m.ip + 1 }, source, sink⟩, none)
    else (⟨m, source, sink⟩, some (.escape .noCell))

/-- Offers the current cell to the sink; the output grows only if the sink takes it. -/
def emit : Config → Config × Option StepError
  | ⟨m, source, sink⟩ =>
    match m.cell? with
    | none => (⟨m, source, sink⟩, some (.escape .noCell))
    | some value =>
      match sink.write value with
      | (sink, none) =>
        (⟨{ m with output := m.output.push value, ip := m.ip + 1 }, source, sink⟩, none)
      | (sink, some refusal) => (⟨m, source, sink⟩, some (.ofRefusal refusal))

/-- Reads from the source first, and only then looks for the cell to put the value in. -/
def accept : Config → Config × Option StepError
  | ⟨m, source, sink⟩ =>
    match source.read with
    | (.value n, source) => alter (fun _ => UInt8.ofInt n) ⟨m, source, sink⟩
    | (.endOfInput, source) => (⟨m, source, sink⟩, some (.fault (.input m.ip .exhausted)))
    | (.failed reason, source) =>
      (⟨m, source, sink⟩, some (.fault (.input m.ip (.device reason))))
    | (.reported fault, source) => (⟨m, source, sink⟩, some (.fault (.foreign fault)))
    | (.raised text, source) => (⟨m, source, sink⟩, some (.escape (.sourceRaised text)))

/-- The bracket table is asked only for a jump that is taken. -/
def jump (jumps : UInt8 → Bool) : Config → Config × Option StepError
  | ⟨m, source, sink⟩ =>
    match m.branch jumps with
    | .ok ip => (⟨{ m with ip := ip }, source, sink⟩, none)
    | .error e => (⟨m, source, sink⟩, some e)

def perform (c : Config) : Instruction → Config × Option StepError
  | .right => c.shift 1
  | .left => c.shift (-1)
  | .increment => c.alter (· + 1)
  | .decrement => c.alter (· - 1)
  | .write => c.emit
  | .read => c.accept
  | .openLoop => c.jump (· == 0)
  | .closeLoop => c.jump (· != 0)

/-- Executes the instruction at the current position and goes on to the next. -/
def step (c : Config) : Config × Option StepError :=
  match c.machine.program.fetch? c.machine.ip with
  | none => (c, some (.escape .noInstruction))
  | some ch =>
    match Instruction.ofChar? ch with
    | none => c.skip
    | some instruction => c.perform instruction

/-- At most `n` steps; the first error ends them. -/
def steps : Nat → Config → Config × Option StepError
  | 0, c => (c, none)
  | n + 1, c =>
    match c.step with
    | (next, none) => steps n next
    | (next, some e) => (next, some e)

/-- Steps until the program is done or a step fails. The result is `none` if `fuel` steps are not
enough. -/
def run : Nat → Config → Option (Config × Option StepError)
  | 0, c => if c.machine.done then some (c, none) else none
  | fuel + 1, c =>
    if c.machine.done then some (c, none)
    else
      match c.step with
      | (next, none) => run fuel next
      | (next, some e) => some (next, some e)

end Config

end ByteTape
