import ByteTape.Brackets
import ByteTape.Instruction

set_option autoImplicit false

namespace ByteTape

/-- A text, one slot per character. Its bracket table is worked out once, and the proof field says
that it is the table of that very text. -/
structure Program where
  code : Array Char
  jumps : Except BracketError JumpTable := JumpTable.ofCode code.toList
  jumps_eq : jumps = JumpTable.ofCode code.toList := by rfl

namespace Program

@[ext]
theorem ext {p q : Program} (same : p.code = q.code) : p = q := by
  obtain ⟨code, jumps, hp⟩ := p
  obtain ⟨code', jumps', hq⟩ := q
  cases same
  subst hp
  subst hq
  rfl

/-- The program of a text as it stands: each character takes a slot, comments too. -/
def ofList (code : List Char) : Program where
  code := code.toArray

def ofString (text : String) : Program :=
  ofList text.toList

def size (p : Program) : Nat :=
  p.code.size

def fetch? (p : Program) (ip : Nat) : Option Char :=
  p.code[ip]?

def isBalanced (p : Program) : Bool :=
  p.jumps matches .ok _

@[simp]
theorem toList_code_ofList (code : List Char) : (ofList code).code.toList = code := by
  simp [ofList]

@[simp]
theorem jumps_ofList (code : List Char) : (ofList code).jumps = JumpTable.ofCode code := by
  simp [jumps_eq]

@[simp]
theorem size_ofList (code : List Char) : (ofList code).size = code.length := by
  simp [ofList, size]

@[simp]
theorem fetch?_ofList (code : List Char) (ip : Nat) : (ofList code).fetch? ip = code[ip]? := by
  simp [ofList, fetch?]

end Program

end ByteTape
