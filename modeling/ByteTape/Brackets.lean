set_option autoImplicit false

namespace ByteTape

inductive Bracket
  | opening
  | closing
  deriving DecidableEq, Repr

namespace Bracket

def toChar : Bracket → Char
  | opening => '['
  | closing => ']'

end Bracket

/-- A bracket without a partner. -/
structure BracketError where
  position : Nat
  bracket : Bracket
  deriving DecidableEq, Repr

/-- Slot `i` holds the partner of the bracket at position `i`, and `none` at other characters. -/
abbrev JumpTable := Array (Option Nat)

namespace JumpTable

/-- The partner of the bracket at position `i`. -/
def partner? (table : JumpTable) (i : Nat) : Option Nat :=
  table[i]?.join

def pairs (table : JumpTable) : List (Nat × Nat) :=
  table.toList.zipIdx.filterMap fun (partner, i) => partner.map (i, ·)

/-- Reads on at position `table.size`. The positions in `opens` are those of the brackets that
wait for a partner, the innermost first. -/
def scan : List Char → List Nat → JumpTable → Except BracketError JumpTable
  | [], [], table => .ok table
  | [], i :: _, _ => .error ⟨i, .opening⟩
  | '[' :: rest, opens, table => scan rest (table.size :: opens) (table.push none)
  | ']' :: _, [], table => .error ⟨table.size, .closing⟩
  | ']' :: rest, i :: opens, table =>
    scan rest opens ((table.setIfInBounds i (some table.size)).push (some i))
  | _ :: rest, opens, table => scan rest opens (table.push none)

/-- The table of a whole text. -/
def ofCode (code : List Char) : Except BracketError JumpTable :=
  scan code [] #[]

end JumpTable

end ByteTape
