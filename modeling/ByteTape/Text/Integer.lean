import ByteTape.Text.Blank
import ByteTape.Text.DecimalDigit
import ByteTape.Text.Numeral

set_option autoImplicit false

namespace ByteTape.Text

/-- The ASCII character that stands for `c` in a number: its digit if it is one, a space if it is
a blank. ASCII stands for itself, and nothing else has a place in a number. -/
def asciiEquivalent? (c : Char) : Option Char :=
  if c.toNat < 0x7f then some c
  else if isBlank c then some ' '
  else (decimalDigit? c).map fun digit => Char.ofNat (48 + digit)

/-- A text in ASCII is taken as it is. In any other, each character is replaced by its ASCII
equivalent, if all of them have one. -/
def asciiForm? (text : List Char) : Option (List Char) :=
  if text.all (·.toNat < 0x80) then some text else text.mapM asciiEquivalent?

/-- The digits of a number, and no others: one underscore may stand between two digits. -/
def ungroupDigits? : List Char → Option (List Char)
  | [] => none
  | [c] => if c.isDigit then some [c] else none
  | c :: '_' :: rest => if c.isDigit then (ungroupDigits? rest).map (c :: ·) else none
  | c :: rest => if c.isDigit then (ungroupDigits? rest).map (c :: ·) else none

def natOfDigits (digits : List Char) : Nat :=
  digits.foldl (fun value c => 10 * value + (c.toNat - 48)) 0

def readNat? (text : List Char) : Option Nat :=
  match ungroupDigits? text with
  | some digits => if digits.length ≤ maxDigits then some (natOfDigits digits) else none
  | none => none

def readSigned? : List Char → Option Int
  | '+' :: rest => (readNat? rest).map Int.ofNat
  | '-' :: rest => (readNat? rest).map fun n => -Int.ofNat n
  | text => (readNat? text).map Int.ofNat

/-- The integer that a text writes. -/
def readInt? (text : List Char) : Option Int :=
  (asciiForm? text).bind fun ascii => readSigned? (trimBy isAsciiBlank ascii)

end ByteTape.Text
