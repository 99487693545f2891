set_option autoImplicit false

namespace ByteTape.Text

/-- The longest number that is read or written, in digits. -/
def maxDigits : Nat :=
  4300

/-- The number, its sign apart, has few enough digits to be written. -/
def Writable (n : Int) : Prop :=
  n.natAbs.repr.length ≤ maxDigits

instance (n : Int) : Decidable (Writable n) :=
  inferInstanceAs (Decidable (n.natAbs.repr.length ≤ maxDigits))

theorem length_repr_le_iff_lt_pow {n digits : Nat} (pos : 0 < digits) :
    n.repr.length ≤ digits ↔ n < Nat.pow 10 digits :=
  Nat.length_repr_le_iff pos

theorem writable_iff {n : Int} : Writable n ↔ n.natAbs < Nat.pow 10 maxDigits :=
  length_repr_le_iff_lt_pow (by decide)

end ByteTape.Text
