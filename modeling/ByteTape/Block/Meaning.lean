import ByteTape.Block
import ByteTape.Execution

set_option autoImplicit false

namespace ByteTape

/-- What a structured program acts on. The pointer is meant to be on the tape: it leaves the tape
only by one step, from the first or the last cell, so that there is no need for arithmetic modulo
the size of the tape. -/
structure Store where
  tape : Array UInt8
  pointer : Nat
  output : Array UInt8
  source : Source
  sink : Sink

namespace Store

def fresh (cells : Nat) (source : Source) (sink : Sink) : Store where
  tape := Array.replicate cells 0
  pointer := 0
  output := #[]
  source := source
  sink := sink

/-- The part of a machine and its devices that a structured program acts on. -/
def ofConfig (c : Config) : Store where
  tape := c.machine.tape
  pointer := c.machine.pointer
  output := c.machine.output
  source := c.source
  sink := c.sink

def cell (s : Store) : UInt8 :=
  s.tape[s.pointer]?.getD 0

def setCell (s : Store) (value : UInt8) : Store :=
  { s with tape := s.tape.setIfInBounds s.pointer value }

/-- One cell to the right. From the last cell the policy decides. -/
def right (policy : PointerPolicy) (ip : Nat) (s : Store) : Store × Option StepError :=
  if s.pointer + 1 < s.tape.size then ({ s with pointer := s.pointer + 1 }, none)
  else
    match policy with
    | .bounded => (s, some (.outOfTape s.tape.size s.tape.size ip))
    | .wrap => ({ s with pointer := 0 }, none)

/-- One cell to the left. From the first cell the policy decides. -/
def left (policy : PointerPolicy) (ip : Nat) (s : Store) : Store × Option StepError :=
  match s.pointer, policy with
  | pointer + 1, _ => ({ s with pointer := pointer }, none)
  | 0, .bounded => (s, some (.outOfTape (-1) s.tape.size ip))
  | 0, .wrap => ({ s with pointer := s.tape.size - 1 }, none)

/-- The sink is asked first; the output holds what it took. -/
def write (s : Store) : Store × Option StepError :=
  let (sink, refusal) := s.sink.write s.cell
  match refusal with
  | none => ({ s with sink := sink, output := s.output.push s.cell }, none)
  | some refusal => ({ s with sink := sink }, some (.ofRefusal refusal))

def read (ip : Nat) (s : Store) : Store × Option StepError :=
  let (reading, source) := s.source.read
  let s := { s with source := source }
  match reading with
  | .value n => (s.setCell (UInt8.ofInt n), none)
  | .endOfInput => (s, some (.fault (.input ip .exhausted)))
  | .failed reason => (s, some (.fault (.input ip (.device reason))))
  | .reported fault => (s, some (.fault (.foreign fault)))
  | .raised text => (s, some (.escape (.sourceRaised text)))

/-- What the character at position `ip` does, brackets apart. -/
def obey (policy : PointerPolicy) (ip : Nat) (c : Char) (s : Store) : Store × Option StepError :=
  match Instruction.ofChar? c with
  | some .right => s.right policy ip
  | some .left => s.left policy ip
  | some .increment => (s.setCell (s.cell + 1), none)
  | some .decrement => (s.setCell (s.cell - 1), none)
  | some .write => s.write
  | some .read => s.read ip
  | _ => (s, none)

end Store

namespace Block

/-- Says that the block `b`, whose text begins at position `ip`, takes the store `s` to `t` and ends
there, at its end if `e` is `none` and by the error `e` otherwise. -/
inductive Runs (policy : PointerPolicy) :
    (ip : Nat) → (b : Block) → (s t : Store) → (e : Option StepError) → Prop
  | done {ip : Nat} {s : Store} : Runs policy ip done s s none
  | plain {ip : Nat} {c : Char} {noOpening : c ≠ '['} {noClosing : c ≠ ']'} {rest : Block}
      {s t u : Store} {e : Option StepError} (acts : s.obey policy ip c = (t, none))
      (after : Runs policy (ip + 1) rest t u e) :
      Runs policy ip (plain c noOpening noClosing rest) s u e
  | plainFails {ip : Nat} {c : Char} {noOpening : c ≠ '['} {noClosing : c ≠ ']'} {rest : Block}
      {s t : Store} {e : StepError} (fails : s.obey policy ip c = (t, some e)) :
      Runs policy ip (plain c noOpening noClosing rest) s t (some e)
  | leave {ip : Nat} {body rest : Block} {s t : Store} {e : Option StepError}
      (zero : s.cell = 0) (after : Runs policy (ip + body.size + 2) rest s t e) :
      Runs policy ip (loop body rest) s t e
  | again {ip : Nat} {body rest : Block} {s t u : Store} {e : Option StepError}
      (nonzero : s.cell ≠ 0) (once : Runs policy (ip + 1) body s t none)
      (after : Runs policy ip (loop body rest) t u e) :
      Runs policy ip (loop body rest) s u e
  | bodyFails {ip : Nat} {body rest : Block} {s t : Store} {e : StepError}
      (nonzero : s.cell ≠ 0) (fails : Runs policy (ip + 1) body s t (some e)) :
      Runs policy ip (loop body rest) s t (some e)

theorem Runs.deterministic {policy : PointerPolicy} {ip : Nat} {b : Block} {s t u : Store}
    {e f : Option StepError} (first : Runs policy ip b s t e) (second : Runs policy ip b s u f) :
    t = u ∧ e = f := by
  induction first generalizing u f with
  | done => cases second; exact ⟨rfl, rfl⟩
  | plain acts _ ih =>
    cases second with
    | plain acts' after =>
      rw [acts] at acts'
      cases acts'
      exact ih after
    | plainFails fails => simp [acts] at fails
  | plainFails fails =>
    cases second with
    | plain acts after => simp [acts] at fails
    | plainFails fails' =>
      rw [fails] at fails'
      cases fails'
      exact ⟨rfl, rfl⟩
  | leave zero _ ih =>
    cases second with
    | leave _ after => exact ih after
    | again nonzero => exact absurd zero nonzero
    | bodyFails nonzero => exact absurd zero nonzero
  | again nonzero _ _ ihOnce ihAfter =>
    cases second with
    | leave zero => exact absurd zero nonzero
    | again _ once after =>
      obtain ⟨rfl, _⟩ := ihOnce once
      exact ihAfter after
    | bodyFails _ fails => exact absurd (ihOnce fails).2 (by simp)
  | bodyFails nonzero _ ih =>
    cases second with
    | leave zero => exact absurd zero nonzero
    | again _ once => exact absurd (ih once).2 (by simp)
    | bodyFails _ fails => exact ih fails

end Block

end ByteTape
