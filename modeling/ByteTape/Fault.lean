import ByteTape.Brackets
import ByteTape.Device.Sink
import ByteTape.Text.Numeral

set_option autoImplicit false

namespace ByteTape

inductive InputError
  | exhausted
  | device (reason : String)
  deriving DecidableEq, Repr

/-- What a run reports as its result when it fails. -/
inductive Fault
  /-- The pointer would have left a tape of `cells` cells. -/
  | outOfTape (pointer : Int) (cells ip : Nat)
  | unbalanced (error : BracketError)
  | input (ip : Nat) (error : InputError)
  | foreign (fault : ForeignFault)
  deriving DecidableEq, Repr

/-- What is no result of a run, but passes through to whoever asked for it. -/
inductive Escape
  | sourceRaised (text : String)
  | sinkFailed (reason : String)
  | sinkRaised (text : String)
  /-- The pointer points to no cell. -/
  | noCell
  /-- There is no instruction at the current position. -/
  | noInstruction
  /-- A tape without cells has no way round. -/
  | emptyTape
  /-- The bracket table of a balanced program lacks an entry. -/
  | noPartner
  /-- The message of a fault would hold too long a number. -/
  | unwritable
  deriving DecidableEq, Repr

/-- Why a step failed. -/
inductive StepError
  | fault (f : Fault)
  | escape (e : Escape)
  deriving DecidableEq, Repr

namespace InputError

def reason : InputError → String
  | exhausted => "input exhausted"
  | device reason => reason

end InputError

namespace Escape

def message : Escape → String
  | sourceRaised text => text
  | sinkFailed reason => reason
  | sinkRaised text => text
  | noCell => "the pointer is not on the tape"
  | noInstruction => "the program has ended"
  | emptyTape => "the tape has no cells"
  | noPartner => "a bracket has no partner"
  | unwritable =>
    let limit := Text.maxDigits
    s!"Exceeds the limit ({limit} digits) for integer string conversion; " ++
      "use sys.set_int_max_str_digits() to increase the limit"

end Escape

namespace StepError

def ofRefusal : Refusal → StepError
  | .failed reason => .escape (.sinkFailed reason)
  | .reported f => .fault (.foreign f)
  | .raised text => .escape (.sinkRaised text)

/-- The error of a pointer that would get to `goal`, which is no cell of a tape of `cells` cells. A
fault needs a message, which holds the goal, and the goal may be too long to be written. -/
def outOfTape (goal : Int) (cells ip : Nat) : StepError :=
  if Text.Writable goal then .fault (.outOfTape goal cells ip) else .escape .unwritable

/-- The error at the position `ip`. The message of a fault holds the position, too. In a program it
is never too long, but a position that was set by hand may be. -/
def reportedAt (ip : Nat) : StepError → StepError
  | fault f => if Text.Writable ip then fault f else .escape .unwritable
  | escape e => escape e

theorem outOfTape_of_writable {goal : Int} (short : Text.Writable goal) (cells ip : Nat) :
    outOfTape goal cells ip = .fault (.outOfTape goal cells ip) :=
  if_pos short

theorem outOfTape_of_not_writable {goal : Int} (long : ¬Text.Writable goal) (cells ip : Nat) :
    outOfTape goal cells ip = .escape .unwritable :=
  if_neg long

theorem reportedAt_outOfTape (goal : Int) (cells ip : Nat) :
    (outOfTape goal cells ip).reportedAt ip =
      if Text.Writable goal ∧ Text.Writable ip then .fault (.outOfTape goal cells ip)
      else .escape .unwritable := by
  by_cases short : Text.Writable goal
  · simp only [outOfTape_of_writable short, reportedAt, short, true_and]
  · simp only [outOfTape_of_not_writable short, reportedAt, short, false_and, if_false]

end StepError

namespace Fault

def message : Fault → String
  | outOfTape pointer cells ip => Wording.outOfTape pointer cells ip
  | unbalanced error => Wording.unmatched (String.singleton error.bracket.toChar) error.position
  | input ip error => Wording.inputFailure ip error.reason
  | foreign fault => fault.message

end Fault

end ByteTape
