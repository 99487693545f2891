import ByteTape.Step
import ByteTape.TapeSize
import ByteTape.Text.Blank
import ByteTape.Text.Latin

set_option autoImplicit false

namespace ByteTape

/-- The text of an output: a character for each byte, trimmed of ASCII blanks at both ends. -/
def outputText (bytes : Array UInt8) : String :=
  String.ofList (Text.trimBy Text.isAsciiBlank (Text.decodeBytes bytes.toList))

inductive Outcome
  | completed (text : String)
  | failed (fault : Fault)
  | escaped (escape : Escape)
  deriving DecidableEq, Repr

/-- Why a run gives no text. -/
inductive RunError
  | tape (error : TapeError)
  | step (error : StepError)
  deriving DecidableEq, Repr

namespace Outcome

def text : Outcome → Except StepError String
  | completed text => .ok text
  | failed f => .error (.fault f)
  | escaped e => .error (.escape e)

end Outcome

/-- How a run ended, and the machine and its devices at the end. -/
structure Execution where
  outcome : Outcome
  final : Config

namespace Execution

def ofStop (final : Config) : Option StepError → Execution
  | none => ⟨.completed (outputText final.machine.output), final⟩
  | some (.fault f) => ⟨.failed f, final⟩
  | some (.escape e) => ⟨.escaped e, final⟩

end Execution

namespace Machine

/-- A machine before its first step, on a tape of the given size, while memory has room for `room`
cells. -/
def ofSize (room : Nat) (program : Program) (size : Int) (policy : PointerPolicy) :
    Except TapeError Machine :=
  (Tape.cellsOfInt room size).map fun cells => fresh program cells policy

end Machine

namespace Config

/-- Runs from a given start, brackets first. The result is `none` if `fuel` steps are not
enough. -/
def execute (fuel : Nat) (start : Config) : Option Execution :=
  match start.machine.program.jumps with
  | .error e => some ⟨.failed (.unbalanced e), start⟩
  | .ok _ => (start.run fuel).map fun (final, error) => .ofStop final error

end Config

/-- Runs a program on a fresh tape of `cells` cells. -/
def execute (fuel : Nat) (program : Program) (cells : Nat) (policy : PointerPolicy)
    (source : Source) (sink : Sink) : Option Execution :=
  Config.execute fuel ⟨.fresh program cells policy, source, sink⟩

/-- Runs a program on a fresh tape of the given size, if there can be such a tape. The tape is made
before all else. -/
def executeSized (room fuel : Nat) (program : Program) (size : Int) (policy : PointerPolicy)
    (source : Source) (sink : Sink) : Except TapeError (Option Execution) :=
  (Machine.ofSize room program size policy).map fun m => Config.execute fuel ⟨m, source, sink⟩

theorem executeSized_eq_map (room fuel : Nat) (program : Program) (size : Int)
    (policy : PointerPolicy) (source : Source) (sink : Sink) :
    executeSized room fuel program size policy source sink =
      (Tape.cellsOfInt room size).map fun cells =>
        execute fuel program cells policy source sink := by
  unfold executeSized Machine.ofSize
  cases Tape.cellsOfInt room size <;> rfl

theorem executeSized_natCast {room cells : Nat} (word : (cells : Int) < Word.limit)
    (fits : cells ≤ room) (fuel : Nat) (program : Program) (policy : PointerPolicy)
    (source : Source) (sink : Sink) :
    executeSized room fuel program cells policy source sink =
      .ok (execute fuel program cells policy source sink) := by
  rw [executeSized_eq_map, Tape.cellsOfInt_eq_ok_iff.2 ⟨rfl, word, fits⟩]
  rfl

end ByteTape
