import ByteTape.Program
import ByteTape.Text.Blank

set_option autoImplicit false

namespace ByteTape

namespace Program

/-- The instruction characters of a source text, in order. -/
def instructions (source : List Char) : List Char :=
  (Text.words source).flatMap fun word => word.filter Instruction.isCode

def load (source : String) : Program :=
  ofList (instructions source.toList)

end Program

end ByteTape
