set_option autoImplicit false

namespace ByteTape

/-- What one character of a program can ask of the machine. -/
inductive Instruction
  | right
  | left
  | increment
  | decrement
  | write
  | read
  | openLoop
  | closeLoop
  deriving DecidableEq, Repr

namespace Instruction

/-- The instruction that a character writes, if it writes one. -/
def ofChar? : Char → Option Instruction
  | '>' => some right
  | '<' => some left
  | '+' => some increment
  | '-' => some decrement
  | '.' => some write
  | ',' => some read
  | '[' => some openLoop
  | ']' => some closeLoop
  | _ => none

def toChar : Instruction → Char
  | right => '>'
  | left => '<'
  | increment => '+'
  | decrement => '-'
  | write => '.'
  | read => ','
  | openLoop => '['
  | closeLoop => ']'

@[simp]
theorem ofChar?_toChar (i : Instruction) : ofChar? i.toChar = some i := by
  cases i <;> rfl

theorem toChar_of_ofChar? {c : Char} {i : Instruction} (written : ofChar? c = some i) :
    i.toChar = c := by
  unfold ofChar? at written
  split at written <;> simp_all [toChar] <;> subst written <;> rfl

/-- Whether a character is an instruction and not a comment. -/
def isCode (c : Char) : Bool :=
  (ofChar? c).isSome

theorem isCode_iff {c : Char} : isCode c = true ↔ ∃ i : Instruction, i.toChar = c := by
  constructor
  · intro written
    obtain ⟨i, hi⟩ := Option.isSome_iff_exists.mp written
    exact ⟨i, toChar_of_ofChar? hi⟩
  · rintro ⟨i, rfl⟩
    simp [isCode]

end Instruction

end ByteTape
