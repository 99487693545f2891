import ByteTape.Text.Quoted

set_option autoImplicit false

namespace ByteTape

namespace Wording

def outOfTape (pointer cells ip : Int) : String :=
  s!"Segmentation fault: data pointer moved to {pointer} outside of a tape of {cells} cells " ++
    s!"(instruction {ip})"

def unmatched (bracket : String) (position : Int) : String :=
  let shown := Text.quote bracket
  s!"Unmatched {shown} at instruction {position}"

def inputFailure (ip : Int) (reason : String) : String :=
  s!"Could not read input for instruction {ip}: {reason}"

end Wording

/-- A fault that a device reports on its own account, perhaps that of another machine behind it.
What it names has nothing to do with the machine that it stops. -/
inductive ForeignFault
  | outOfTape (pointer cells ip : Int)
  | unbalanced (position : Int) (bracket : String)
  | input (ip : Int) (reason : String)
  /-- A fault of none of these kinds. -/
  | other (message : String)
  deriving DecidableEq, Repr

namespace ForeignFault

def message : ForeignFault → String
  | outOfTape pointer cells ip => Wording.outOfTape pointer cells ip
  | unbalanced position bracket => Wording.unmatched bracket position
  | input ip reason => Wording.inputFailure ip reason
  | other message => message

end ForeignFault

end ByteTape
