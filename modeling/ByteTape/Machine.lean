import ByteTape.Fault
import ByteTape.Program

set_option autoImplicit false

namespace ByteTape

/-- What happens when the pointer leaves the tape. -/
inductive PointerPolicy
  /-- It may not. -/
  | bounded
  /-- It comes in again at the other end. -/
  | wrap
  deriving DecidableEq, Repr

/-- Nothing is assumed about the pointer and the position. A machine that was not made by `fresh`
may have them outside, or have no tape at all. -/
structure Machine where
  program : Program
  tape : Array UInt8
  policy : PointerPolicy := .bounded
  pointer : Nat := 0
  ip : Nat := 0
  output : Array UInt8 := #[]

namespace Machine

/-- A machine before its first step, on a tape of `cells` zero cells. -/
def fresh (program : Program) (cells : Nat) (policy : PointerPolicy) : Machine where
  program := program
  tape := Array.replicate cells 0
  policy := policy

def done (m : Machine) : Bool :=
  m.program.size ≤ m.ip

def cell? (m : Machine) : Option UInt8 :=
  m.tape[m.pointer]?

/-- The instruction at the current position, if there is one there. -/
def instruction? (m : Machine) : Option Instruction :=
  (m.program.fetch? m.ip).bind Instruction.ofChar?

def target (m : Machine) (delta : Int) : Except StepError Nat :=
  let goal : Int := m.pointer + delta
  match m.policy with
  | .wrap =>
    if m.tape.size = 0 then .error (.escape .emptyTape) else .ok (goal % m.tape.size).toNat
  | .bounded =>
    if 0 ≤ goal ∧ goal < m.tape.size then .ok goal.toNat
    else .error (.outOfTape goal m.tape.size m.ip)

/-- Moves the pointer by `delta`, or says why that is impossible. -/
def move (m : Machine) (delta : Int) : Machine × Option StepError :=
  match m.target delta with
  | .ok pointer => ({ m with pointer := pointer }, none)
  | .error e => (m, some (e.reportedAt m.ip))

/-- The position just after the partner of the current bracket. -/
def landing (m : Machine) : Except StepError Nat :=
  match m.program.jumps with
  | .error e => .error (.fault (.unbalanced e))
  | .ok table =>
    match table.partner? m.ip with
    | none => .error (.escape .noPartner)
    | some partner => .ok (partner + 1)

/-- Where the program goes on after a bracket that jumps when `jumps` holds of the cell. -/
def branch (m : Machine) (jumps : UInt8 → Bool) : Except StepError Nat :=
  match m.cell? with
  | none => .error (.escape .noCell)
  | some value => if jumps value then m.landing else .ok (m.ip + 1)

@[simp]
theorem size_tape_fresh (program : Program) (cells : Nat) (policy : PointerPolicy) :
    (fresh program cells policy).tape.size = cells := by
  simp [fresh]

end Machine

end ByteTape
